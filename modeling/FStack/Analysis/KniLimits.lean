import FStack.Model.KniQueue
import FStack.Prelude.Monitored
import Mathlib.Data.List.Count

/-!
# Limits and statistics of the queues to the kernel

Between two resets the counters only grow, and a packet enters a ring (or is passed on) only below
its limit, so the number of those that did is bounded by the counter and by the limit at once
(`WithinLimits`).  The statistics of a port follow the places of its packets (`Conserved`).
-/

set_option autoImplicit false

namespace FStack.Analysis

open FStack.Model FStack.Prelude

variable {conf : KniQueueConf} {s t st : KniQueues}
variable {x : Int32} {count : ℕ} {as : List KniAction} {p : KniPort}

/-- A burst of the size that the loop asks for. -/
def KniBurst : KniAction → Prop
  | .processTx _ count _ => count ≤ MAX_PKT_BURST
  | _ => True

/-- The action does not start the limits again. -/
def KniNoReset (conf : KniQueueConf) (st : KniQueues) : KniAction → Prop
  | .clock sec => kniResets conf st sec = false
  | _ => True

/-! ## The limits -/

/-- What has entered and what has been passed on since `s`, in a run without a reset. -/
structure WithinLimits (conf : KniQueueConf) (s t : KniQueues) : Prop where
  console : 0 < conf.console_packets_ratelimit →
    t.consoleEntered ≤
      s.consoleEntered + min t.console_packets (u64OfInt conf.console_packets_ratelimit)
  general : 0 < conf.general_packets_ratelimit →
    t.generalEntered ≤
      s.generalEntered + min t.gerneal_packets (u64OfInt conf.general_packets_ratelimit)
  kernel : 0 < conf.kernel_packets_ratelimit →
    t.passed ≤ s.passed + min t.kernel_packets
      (u64OfInt conf.kernel_packets_ratelimit - 1 + MAX_PKT_BURST)

theorem WithinLimits.refl (conf : KniQueueConf) (s : KniQueues) : WithinLimits conf s s :=
  ⟨fun _ => Nat.le_add_right _ _, fun _ => Nat.le_add_right _ _, fun _ => Nat.le_add_right _ _⟩

/-- INTERNAL: A positive limit is not zero. -/
theorem ne_zero_of_pos (h : 0 < x) : x ≠ 0 := by
  rintro rfl
  exact absurd h (by decide)

/-- INTERNAL: A packet enters at most once, and only below its limit. -/
theorem WithinLimits.enqueue (h : WithinLimits conf s t) (filter : FilterReturn) (port_id pkt : ℕ) :
    WithinLimits conf s (ffKniEnqueue conf t filter port_id pkt) := by
  obtain ⟨hconsole, hgeneral, hkernel⟩ := h
  by_cases hclass : FilterReturn.arp.val ≤ filter.val
  · constructor
    · intro hpos
      have hold := hconsole hpos
      simp only [ffKniEnqueue, kniAdmit, if_pos hclass, if_pos (ne_zero_of_pos hpos)]
      split
      · rename_i hin
        simp only [Bool.and_eq_true, decide_eq_true_eq] at hin
        dsimp only
        omega
      · dsimp only
        omega
    · intro hpos
      have hold := hgeneral hpos
      simp only [ffKniEnqueue, kniAdmit, if_pos hclass]
      split <;> split <;> exact hold
    · intro hpos
      have hold := hkernel hpos
      simp only [ffKniEnqueue, kniAdmit, if_pos hclass]
      split <;> split <;> exact hold
  · constructor
    · intro hpos
      have hold := hconsole hpos
      simp only [ffKniEnqueue, kniAdmit, if_neg hclass]
      split <;> split <;> exact hold
    · intro hpos
      have hold := hgeneral hpos
      simp only [ffKniEnqueue, kniAdmit, if_neg hclass, if_pos (ne_zero_of_pos hpos)]
      split
      · rename_i hin
        simp only [Bool.and_eq_true, decide_eq_true_eq] at hin
        dsimp only
        omega
      · dsimp only
        omega
    · intro hpos
      have hold := hkernel hpos
      simp only [ffKniEnqueue, kniAdmit, if_neg hclass]
      split <;> split <;> exact hold

/-- INTERNAL: A burst is passed on only below the limit, so it exceeds it by less than its size. -/
theorem WithinLimits.processTx (h : WithinLimits conf s t) (port_id : ℕ)
    (hcount : count ≤ MAX_PKT_BURST) (accepted : ℕ) :
    WithinLimits conf s (kniProcessTx conf t port_id count accepted) := by
  refine ⟨h.console, h.general, ?_⟩
  intro hpos
  have hold := h.kernel hpos
  have hne := ne_zero_of_pos hpos
  have hburst : ((t.port port_id).kni_rp.take count).length % 65536 ≤ MAX_PKT_BURST := by
    apply Nat.le_trans (Nat.mod_le _ _)
    rw [List.length_take]
    omega
  simp only [kniProcessTx, if_pos hne, kniToTx]
  by_cases hbelow : t.kernel_packets < u64OfInt conf.kernel_packets_ratelimit
  · rw [if_pos hbelow]
    omega
  · rw [if_neg hbelow]
    omega

/-- **What may enter and be passed on without a reset**, over a run. -/
theorem withinLimits_run (conf : KniQueueConf) (h : WithinLimits conf s t)
    (hburst : ∀ a ∈ as, KniBurst a) (hreset : AllSteps (kniStep conf) (KniNoReset conf) t as) :
    WithinLimits conf s (as.foldl (kniStep conf) t) := by
  induction as generalizing t with
  | nil => exact h
  | cons a as ih =>
    rw [List.forall_mem_cons] at hburst
    refine ih ?_ hburst.2 hreset.2
    cases a with
    | enqueue filter port_id pkt => exact h.enqueue filter port_id pkt
    | processTx port_id count accepted => exact h.processTx port_id hburst.1 accepted
    | clock sec =>
      have hno : kniResets conf t sec = false := hreset.1
      have hsame : kniStep conf t (.clock sec) = t := by
        rw [kniStep, resetKniRatelimt, hno]
        rfl
      rw [hsame]
      exact h

/-! ## The statistics -/

/-- The packets given to a port are in its ring, sent or freed, once each, and the statistics count
the last two. -/
structure Conserved (p : KniPort) : Prop where
  places : p.handed.Perm (p.kni_rp ++ p.sent ++ p.freed)
  sent : p.rx_packets = p.sent.length
  freed : p.rx_dropped = p.freed.length

/-- INTERNAL: The statistics add up to the packets given to the port. -/
theorem Conserved.total (h : Conserved p) :
    p.rx_packets + p.rx_dropped + p.kni_rp.length = p.handed.length := by
  have hlen := h.places.length_eq
  rw [List.length_append, List.length_append] at hlen
  rw [h.sent, h.freed]
  omega

/-- INTERNAL: Giving a packet to a port, whether it enters the ring or not. -/
theorem Conserved.enqueue (hprimary : conf.primary = true) (h : Conserved p) (pkt : ℕ) :
    Conserved { p with handed := p.handed ++ [pkt], kni_rp := p.kni_rp ++ [pkt] } ∧
      Conserved (kniEnqueueError conf { p with handed := p.handed ++ [pkt] } pkt) := by
  have hplaces := List.perm_iff_count.mp h.places
  constructor
  · refine ⟨?_, h.sent, h.freed⟩
    rw [List.perm_iff_count]
    intro q
    have hq := hplaces q
    simp only [List.count_append] at hq ⊢
    omega
  · refine ⟨?_, h.sent, ?_⟩
    · rw [List.perm_iff_count]
      intro q
      have hq := hplaces q
      simp only [kniEnqueueError, List.count_append] at hq ⊢
      omega
    · simp [kniEnqueueError, hprimary, h.freed]

/-- INTERNAL: A burst is sent, or freed. -/
theorem conserved_processTx (h : ∀ i, Conserved (st.port i)) (port_id : ℕ)
    (hcount : count ≤ MAX_PKT_BURST) (accepted i : ℕ) :
    Conserved ((kniProcessTx conf st port_id count accepted).port i) := by
  by_cases hi : i = port_id
  · subst hi
    have hsize : MAX_PKT_BURST = 32 := rfl
    have hshort : ((st.port i).kni_rp.take count).length ≤ 32 := by
      rw [List.length_take]
      omega
    have hnb : ((st.port i).kni_rp.take count).length % 65536 =
        ((st.port i).kni_rp.take count).length := Nat.mod_eq_of_lt (by omega)
    simp only [kniProcessTx, Function.update_self, hnb, List.take_length]
    generalize hto : min accepted (kniToTx conf st ((st.port i).kni_rp.take count).length) = n
    have hn : n ≤ ((st.port i).kni_rp.take count).length := by
      rw [← hto]
      apply Nat.le_trans (Nat.min_le_right _ _)
      rw [kniToTx]
      split
      · split
        · exact Nat.le_refl _
        · exact Nat.zero_le _
      · exact Nat.le_refl _
    refine ⟨?_, ?_, ?_⟩
    · rw [List.perm_iff_count]
      intro q
      have hq := List.perm_iff_count.mp (h i).places q
      have hburst : (st.port i).kni_rp.count q =
          ((st.port i).kni_rp.take count).count q + ((st.port i).kni_rp.drop count).count q := by
        rw [← List.count_append, List.take_append_drop]
      have hsplit : ((st.port i).kni_rp.take count).count q =
          (((st.port i).kni_rp.take count).take n).count q +
            (((st.port i).kni_rp.take count).drop n).count q := by
        rw [← List.count_append, List.take_append_drop]
      simp only [List.count_append] at hq ⊢
      omega
    · simp only [List.length_append, List.length_take_of_le hn, (h i).sent]
    · simp only [List.length_append, List.length_drop, (h i).freed]
  · rw [kniProcessTx]
    dsimp only
    rw [Function.update_of_ne hi]
    exact h i

/-- INTERNAL: The counters of the limits are no part of a port. -/
theorem kniAdmit_port (conf : KniQueueConf) (st : KniQueues) (filter : FilterReturn) :
    (kniAdmit conf st filter).1.port = st.port := by
  rw [kniAdmit]
  split
  · split <;> rfl
  · split <;> rfl

theorem conserved_enqueue (hprimary : conf.primary = true) (h : ∀ i, Conserved (st.port i))
    (filter : FilterReturn) (port_id pkt i : ℕ) :
    Conserved ((ffKniEnqueue conf st filter port_id pkt).port i) := by
  have hboth := (h port_id).enqueue hprimary pkt
  have hport := kniAdmit_port conf st filter
  rw [ffKniEnqueue]
  generalize kniAdmit conf st filter = r at hport
  obtain ⟨st', admitted⟩ := r
  dsimp only at hport ⊢
  rw [hport]
  by_cases hi : i = port_id
  · subst hi
    split
    · split
      · simpa using hboth.1
      · simpa using hboth.1
    · simpa using hboth.2
  · split
    · split
      · simpa [hi] using h i
      · simpa [hi] using h i
    · simpa [hi] using h i

/-- **Every packet stays accounted for**, over a run. -/
theorem conserved_run (hprimary : conf.primary = true) (h : ∀ i, Conserved (st.port i))
    (hburst : ∀ a ∈ as, KniBurst a) (i : ℕ) :
    Conserved ((as.foldl (kniStep conf) st).port i) := by
  induction as generalizing st with
  | nil => exact h i
  | cons a as ih =>
    rw [List.forall_mem_cons] at hburst
    refine ih ?_ hburst.2
    intro j
    cases a with
    | enqueue filter port_id pkt => exact conserved_enqueue hprimary h filter port_id pkt j
    | processTx port_id count accepted => exact conserved_processTx h port_id hburst.1 accepted j
    | clock sec =>
      rw [kniStep, resetKniRatelimt]
      split
      · exact h j
      · exact h j

/-! ## Runs of the primary process -/

/-- How far a number of packets has grown during the part `seg` of a run. -/
def kniDuring (conf : KniQueueConf) (count : KniQueues → ℕ) (pre seg : List KniAction) : ℕ :=
  count ((pre ++ seg).foldl (kniStep conf) KniQueues.init) -
    count (pre.foldl (kniStep conf) KniQueues.init)

/-- What the limits and the statistics say of a run. -/
structure KniRun (conf : KniQueueConf) (as : List KniAction) : Prop where
  /-- in a part without a reset, the positive limits hold -/
  limits : ∀ pre seg post, as = pre ++ seg ++ post →
    AllSteps (kniStep conf) (KniNoReset conf) (pre.foldl (kniStep conf) KniQueues.init) seg →
      (0 < conf.console_packets_ratelimit → kniDuring conf KniQueues.consoleEntered pre seg ≤
        conf.console_packets_ratelimit.toInt.toNat) ∧
      (0 < conf.general_packets_ratelimit → kniDuring conf KniQueues.generalEntered pre seg ≤
        conf.general_packets_ratelimit.toInt.toNat) ∧
      (0 < conf.kernel_packets_ratelimit → kniDuring conf KniQueues.passed pre seg ≤
        conf.kernel_packets_ratelimit.toInt.toNat - 1 + MAX_PKT_BURST)
  /-- each packet given to a port is in its ring, sent or freed, once -/
  places : ∀ i, let p := (as.foldl (kniStep conf) KniQueues.init).port i
    p.handed.Perm (p.kni_rp ++ p.sent ++ p.freed)
  /-- and the statistics add up to them -/
  total : ∀ i, let p := (as.foldl (kniStep conf) KniQueues.init).port i
    p.rx_packets + p.rx_dropped + p.kni_rp.length = p.handed.length

/-- INTERNAL: The cast leaves a positive limit as it is. -/
theorem u64OfInt_of_pos (h : 0 < x) : u64OfInt x = x.toInt.toNat := by
  have hpos : 0 < x.toInt := by simpa using Int32.lt_iff_toInt_lt.mp h
  have hlt : x.toInt < 2 ^ 31 := x.toInt_lt
  rw [u64OfInt, Int.emod_eq_of_lt (by omega) (by omega)]

/-- **Rate limits and statistics of the primary process**, in every run. -/
theorem kni_run (conf : KniQueueConf) (hprimary : conf.primary = true) (as : List KniAction)
    (hburst : ∀ a ∈ as, KniBurst a) : KniRun conf as where
  limits pre seg post hsplit hreset := by
    have hseg : ∀ a ∈ seg, KniBurst a := by
      intro a ha
      apply hburst
      rw [hsplit]
      exact List.mem_append_left _ (List.mem_append_right _ ha)
    have hrun := withinLimits_run conf (WithinLimits.refl conf _) hseg hreset
    refine ⟨fun hpos => ?_, fun hpos => ?_, fun hpos => ?_⟩
    · have hconsole := hrun.console hpos
      rw [u64OfInt_of_pos hpos] at hconsole
      rw [kniDuring, List.foldl_append]
      omega
    · have hgeneral := hrun.general hpos
      rw [u64OfInt_of_pos hpos] at hgeneral
      rw [kniDuring, List.foldl_append]
      omega
    · have hkernel := hrun.kernel hpos
      rw [u64OfInt_of_pos hpos] at hkernel
      rw [kniDuring, List.foldl_append]
      omega
  places i := (conserved_run hprimary (fun _ => ⟨.nil, rfl, rfl⟩) hburst i).places
  total i := (conserved_run hprimary (fun _ => ⟨.nil, rfl, rfl⟩) hburst i).total

/-- With a limit of one, the second of two ARP packets is dropped; the other is sent. -/
theorem kni_run_limitHit :
    let conf : KniQueueConf := ⟨1, 0, 0, true, true, 4⟩
    let as : List KniAction := [.enqueue .arp 0 7, .enqueue .arp 0 8, .processTx 0 32 1]
    let p := (as.foldl (kniStep conf) KniQueues.init).port 0
    p.sent = [7] ∧ p.freed = [8] ∧ p.rx_packets + p.rx_dropped + p.kni_rp.length = p.handed.length :=
  ⟨by decide, by decide, (kni_run ⟨1, 0, 0, true, true, 4⟩ rfl
    [.enqueue .arp 0 7, .enqueue .arp 0 8, .processTx 0 32 1]
    (by simp [KniBurst, MAX_PKT_BURST])).total 0⟩

end FStack.Analysis
