import FStack.Analysis.ConfigBounds

/-!
# The queues of a port and the processes

Every process takes the queue of a port whose index is that of its lcore in the port's `lcore_list`.
An accepted configuration names enabled lcores only, and the lcores of the processes are different, so
that each queue has at most one process.  Two things are not checked: where a list names an lcore
twice, its first queue has none, and a process has room for `MAX_RX_QUEUE_PER_LCORE` queues only.
-/

set_option autoImplicit false

namespace FStack.Analysis

open FStack.Prelude FStack.Model

variable {port p : ℕ}

/-- The lcore of a process. -/
def lcoreOf (cfg : Config) (proc_id : ℕ) : ℕ := cfg.proc_lcore.getD (fun _ => 0) proc_id

/-- The process polls a queue: it is in its `rx_queue_list`. -/
def Polls (m : Machine) (cfg : Config) (proc_id : ℕ) (e : RxQueue) : Prop :=
  ∃ conf, (initLcoreConf m cfg proc_id).val = some conf ∧
    ∃ i < conf.nb_rx_queue, conf.rx_queue_list i = e

/-- The element written exists. -/
def InConf : LcoreWrite → Prop
  | .rxQueueList idx => idx < MAX_RX_QUEUE_PER_LCORE
  | .txPortId idx => idx < RTE_MAX_ETHPORTS

/-- Each queue of each enabled port is polled by exactly one process, and no process writes behind
its lists. -/
def QueuesAssigned (m : Machine) (cfg : Config) : Prop :=
  (∀ port ∈ cfg.ports, ∀ q < (portAt cfg port).nb_lcores,
    ∃! p, p < cfg.nb_procs ∧ Polls m cfg p ⟨port, q⟩) ∧
  ∀ p < cfg.nb_procs, (initLcoreConf m cfg p).Every InConf

/-- `init_lcore_conf` does not exit for what the machine lacks: it has the ports, and every process runs
on its lcore. -/
def Machine.Supports (m : Machine) (cfg : Config) : Prop :=
  cfg.max_portid < m.nb_dev_ports ∧
    ∀ p < cfg.nb_procs, m.rte_lcore_is_enabled p (lcoreOf cfg p) = true

/-- The enabled ports that name the lcore of a process, with repetitions. -/
def portsOf (cfg : Config) (proc_id : ℕ) : List ℕ :=
  cfg.ports.filter fun (port : ℕ) => lcoreOf cfg proc_id ∈ (portAt cfg port).lcores

/-! ## The search in the list of lcores -/

section Search

variable {pconf : PortCfg} {lcore_id : ℕ}

/-- The loop over the first `n` lcores. -/
def queueIdUpTo (lcore_list : ℕ → ℕ) (lcore_id n : ℕ) : ℤ :=
  (List.range n).foldl
    (fun queueid i => if lcore_list i = lcore_id then (i : ℤ) else queueid) (-1)

theorem queueIdUpTo_succ (lcore_list : ℕ → ℕ) (lcore_id n : ℕ) :
    queueIdUpTo lcore_list lcore_id (n + 1) =
      if lcore_list n = lcore_id then (n : ℤ) else queueIdUpTo lcore_list lcore_id n := by
  simp [queueIdUpTo, List.range_succ]

/-- The last index of the lcore, if there is one.
SOURCE: lib/ff_dpdk_if.c:350-356 -/
theorem queueIdUpTo_eq_iff (lcore_list : ℕ → ℕ) (lcore_id n q : ℕ) :
    queueIdUpTo lcore_list lcore_id n = q ↔
      q < n ∧ lcore_list q = lcore_id ∧ ∀ j, q < j → j < n → lcore_list j ≠ lcore_id := by
  induction n with
  | zero =>
    simp only [queueIdUpTo, List.range_zero, List.foldl_nil, Nat.not_lt_zero, false_and, iff_false]
    omega
  | succ n ih =>
    rw [queueIdUpTo_succ]
    split <;> rename_i hn
    · constructor
      · intro h
        have : q = n := by omega
        subst this
        exact ⟨by omega, hn, fun j hj hj' => by omega⟩
      · rintro ⟨hq, -, hlast⟩
        by_contra hne
        exact hlast n (by omega) (by omega) hn
    · rw [ih]
      constructor
      · rintro ⟨hq, heq, hlast⟩
        refine ⟨by omega, heq, fun j hj hj' => ?_⟩
        rcases Nat.lt_succ_iff_lt_or_eq.mp hj' with hlt | rfl
        · exact hlast j hj hlt
        · exact hn
      · rintro ⟨hq, heq, hlast⟩
        have hne : q ≠ n := by
          rintro rfl
          exact hn heq
        exact ⟨by omega, heq, fun j hj hj' => hlast j hj (by omega)⟩

theorem queueIdUpTo_neg_iff (lcore_list : ℕ → ℕ) (lcore_id n : ℕ) :
    queueIdUpTo lcore_list lcore_id n < 0 ↔ ∀ i < n, lcore_list i ≠ lcore_id := by
  induction n with
  | zero => simp [queueIdUpTo]
  | succ n ih =>
    rw [queueIdUpTo_succ, Nat.forall_lt_succ_right, ← ih]
    split <;> rename_i hn
    · simp [hn]
    · simp [hn]

theorem queueId_eq_iff (q : ℕ) :
    queueId pconf lcore_id = q ↔
      q < pconf.nb_lcores ∧ pconf.lcore_list q = lcore_id ∧
        ∀ j, q < j → j < pconf.nb_lcores → pconf.lcore_list j ≠ lcore_id :=
  queueIdUpTo_eq_iff _ _ _ _

theorem queueId_neg_iff : queueId pconf lcore_id < 0 ↔ lcore_id ∉ pconf.lcores := by
  refine (queueIdUpTo_neg_iff _ _ _).trans ?_
  simp [PortCfg.lcores]

theorem lcores_nodup_iff :
    pconf.lcores.Nodup ↔
      ∀ i < pconf.nb_lcores, ∀ j < pconf.nb_lcores,
        pconf.lcore_list i = pconf.lcore_list j → i = j := by
  unfold PortCfg.lcores
  rw [List.nodup_map_iff_inj_on List.nodup_range]
  simp

end Search

/-! ## One process -/

/-- The queues in `rx_queue_list`. -/
def rxQueues (conf : LcoreConf) : List RxQueue :=
  (List.range conf.nb_rx_queue).map conf.rx_queue_list

/-- The queue of a port that belongs to an lcore. -/
def queueOf (cfg : Config) (lcore_id port : ℕ) : Option RxQueue :=
  let queueid := queueId (portAt cfg port) lcore_id
  if queueid < 0 then none else some ⟨port, queueid.toNat⟩

section Process

variable {cfg : Config} {lcore_id : ℕ}

theorem queueOf_eq_some_iff (port' q : ℕ) :
    queueOf cfg lcore_id port' = some ⟨port, q⟩ ↔
      port' = port ∧ queueId (portAt cfg port) lcore_id = q := by
  unfold queueOf
  by_cases hneg : queueId (portAt cfg port') lcore_id < 0
  · simp only [hneg, if_true, reduceCtorEq, false_iff, not_and]
    rintro rfl
    omega
  · simp only [hneg, if_false, Option.some.injEq, RxQueue.mk.injEq]
    refine and_congr_right ?_
    rintro rfl
    omega

/-- A port without the lcore is skipped.
SOURCE: lib/ff_dpdk_if.c:357-359 -/
theorem lcorePort_of_none (conf : LcoreConf) (h : queueOf cfg lcore_id port = none) :
    lcorePort cfg lcore_id conf port = pure conf := by
  refine if_pos ?_
  by_contra hneg
  have hsome : queueOf cfg lcore_id port = some _ := if_neg hneg
  rw [h] at hsome
  cases hsome

/-- A port with the lcore takes the next element of both lists.
SOURCE: lib/ff_dpdk_if.c:360-375 -/
theorem lcorePort_of_some (conf : LcoreConf) {e : RxQueue} (h : queueOf cfg lcore_id port = some e) :
    (lcorePort cfg lcore_id conf port).val.nb_rx_queue = conf.nb_rx_queue + 1 ∧
      (lcorePort cfg lcore_id conf port).val.nb_tx_port = conf.nb_tx_port + 1 ∧
      rxQueues (lcorePort cfg lcore_id conf port).val = rxQueues conf ++ [e] ∧
      (lcorePort cfg lcore_id conf port).log =
        [.rxQueueList conf.nb_rx_queue, .txPortId conf.nb_tx_port] := by
  have hneg : ¬ queueId (portAt cfg port) lcore_id < 0 := by
    intro hneg
    rw [queueOf, if_pos hneg] at h
    cases h
  have he : (⟨port, (queueId (portAt cfg port) lcore_id).toNat⟩ : RxQueue) = e := by
    rw [queueOf, if_neg hneg] at h
    exact Option.some.inj h
  have hbody : lcorePort cfg lcore_id conf port = _ := if_neg hneg
  rw [hbody]
  refine ⟨rfl, rfl, ?_, rfl⟩
  simp only [rxQueues, Logged.val_bind, Logged.val_pure, List.range_succ, List.map_append,
    List.map_cons, List.map_nil, if_true]
  congr 1
  · refine List.map_congr_left fun i hi => ?_
    rw [if_neg (Nat.ne_of_lt (List.mem_range.mp hi))]
  · exact congrArg (fun e => [e]) he

/-- The loop over the ports appends the queues of the ports that have one.
SOURCE: lib/ff_dpdk_if.c:345-376 -/
theorem rxQueues_lcorePorts (conf : LcoreConf) (ports : List ℕ) :
    rxQueues (lcorePorts cfg lcore_id conf ports).val =
      rxQueues conf ++ ports.filterMap (queueOf cfg lcore_id) := by
  induction ports generalizing conf with
  | nil => simp [lcorePorts]
  | cons port rest ih =>
    simp only [lcorePorts, Logged.val_bind, ih]
    cases hq : queueOf cfg lcore_id port with
    | none => rw [lcorePort_of_none conf hq, List.filterMap_cons_none hq, Logged.val_pure]
    | some e =>
      rw [(lcorePort_of_some conf hq).2.2.1, List.filterMap_cons_some hq, List.append_assoc,
        List.singleton_append]

/-- And it writes behind the lists exactly if there are too many of them.
SOURCE: lib/ff_dpdk_if.c:345-376 -/
theorem lcorePorts_inConf_iff (conf : LcoreConf) (ports : List ℕ)
    (hle : conf.nb_rx_queue ≤ MAX_RX_QUEUE_PER_LCORE) (htx : conf.nb_tx_port = conf.nb_rx_queue) :
    (lcorePorts cfg lcore_id conf ports).Every InConf ↔
      conf.nb_rx_queue + (ports.filterMap (queueOf cfg lcore_id)).length ≤
        MAX_RX_QUEUE_PER_LCORE := by
  induction ports generalizing conf with
  | nil => simpa [lcorePorts] using hle
  | cons port rest ih =>
    simp only [lcorePorts, Logged.every_bind]
    cases hq : queueOf cfg lcore_id port with
    | none =>
      rw [lcorePort_of_none conf hq, List.filterMap_cons_none hq, Logged.val_pure, ih conf hle htx]
      exact and_iff_right (Logged.every_pure _)
    | some e =>
      obtain ⟨hrx', htx', -, hlog⟩ := lcorePort_of_some conf hq
      have hwrites : (lcorePort cfg lcore_id conf port).Every InConf ↔
          conf.nb_rx_queue < MAX_RX_QUEUE_PER_LCORE := by
        have hwide : MAX_RX_QUEUE_PER_LCORE ≤ RTE_MAX_ETHPORTS := by decide
        simp only [Logged.Every, hlog, List.forall_mem_cons, List.not_mem_nil, false_implies,
          implies_true, and_true, InConf, htx]
        omega
      rw [hwrites, List.filterMap_cons_some hq, List.length_cons]
      constructor
      · rintro ⟨hlt, hrest⟩
        rw [ih _ (by omega) (by omega)] at hrest
        omega
      · intro hsum
        refine ⟨by omega, ?_⟩
        rw [ih _ (by omega) (by omega)]
        omega

theorem length_filterMap_queueOf (ports : List ℕ) :
    (ports.filterMap (queueOf cfg lcore_id)).length =
      (ports.filter fun (port : ℕ) => lcore_id ∈ (portAt cfg port).lcores).length := by
  induction ports with
  | nil => rfl
  | cons port rest ih =>
    have hiff : (queueOf cfg lcore_id port).isNone = true ↔ lcore_id ∉ (portAt cfg port).lcores := by
      rw [← queueId_neg_iff, queueOf]
      split <;> simp_all
    cases hq : queueOf cfg lcore_id port with
    | none =>
      rw [hq] at hiff
      rw [List.filterMap_cons_none hq, List.filter_cons_of_neg (by simpa using hiff.mp rfl), ih]
    | some e =>
      rw [hq] at hiff
      rw [List.filterMap_cons_some hq, List.filter_cons_of_pos (by simpa using hiff), List.length_cons,
        List.length_cons, ih]

end Process

/-! ## All processes -/

section Fleet

variable {m : Machine} {cfg : Config}

/-- `init_lcore_conf` on a machine that has what the configuration needs.
SOURCE: lib/ff_dpdk_if.c:314-382 -/
theorem initLcoreConf_eq (hm : Machine.Supports m cfg) (hp : p < cfg.nb_procs) :
    initLcoreConf m cfg p = do
      let conf ← lcorePorts cfg (lcoreOf cfg p) {} cfg.ports
      return if conf.nb_rx_queue = 0 then none else some conf := by
  obtain ⟨hports, hlcores⟩ := hm
  unfold initLcoreConf
  rw [if_neg (by omega), if_neg (by omega)]
  exact if_neg (by simpa [lcoreOf] using hlcores p hp)

/-- A process polls the queues that belong to its lcore. -/
theorem polls_iff (hm : Machine.Supports m cfg) (hp : p < cfg.nb_procs) (hport : port ∈ cfg.ports)
    (q : ℕ) :
    Polls m cfg p ⟨port, q⟩ ↔ queueId (portAt cfg port) (lcoreOf cfg p) = q := by
  have hmem : ∀ conf : LcoreConf, (∃ i < conf.nb_rx_queue, conf.rx_queue_list i = ⟨port, q⟩) ↔
      (⟨port, q⟩ : RxQueue) ∈ rxQueues conf := by
    intro conf
    simp [rxQueues]
  have hqueues : rxQueues (lcorePorts cfg (lcoreOf cfg p) {} cfg.ports).val =
      cfg.ports.filterMap (queueOf cfg (lcoreOf cfg p)) := by
    simpa [rxQueues] using rxQueues_lcorePorts {} cfg.ports
  have hval : Polls m cfg p ⟨port, q⟩ ↔
      (⟨port, q⟩ : RxQueue) ∈ rxQueues (lcorePorts cfg (lcoreOf cfg p) {} cfg.ports).val := by
    unfold Polls
    rw [initLcoreConf_eq hm hp, ← hmem]
    simp only [Logged.val_bind, Logged.val_pure]
    split <;> rename_i h0
    · simp [h0]
    · simp
  rw [hval, hqueues, List.mem_filterMap]
  constructor
  · rintro ⟨port', -, hq⟩
    exact ((queueOf_eq_some_iff port' q).mp hq).2
  · intro hq
    exact ⟨port, hport, (queueOf_eq_some_iff port q).mpr ⟨rfl, hq⟩⟩

/-- A process writes inside its lists exactly if they have room for its ports. -/
theorem initLcoreConf_inConf_iff (hm : Machine.Supports m cfg) (hp : p < cfg.nb_procs) :
    (initLcoreConf m cfg p).Every InConf ↔ (portsOf cfg p).length ≤ MAX_RX_QUEUE_PER_LCORE := by
  rw [initLcoreConf_eq hm hp, Logged.every_bind, lcorePorts_inConf_iff {} _ (Nat.zero_le _) rfl,
    length_filterMap_queueOf]
  simp [portsOf]

/-- The queues of one port, for processes with different lcores that the port may name.
An lcore that is named twice leaves the first of its queues without a process. -/
theorem portQueues_iff (htable : ProcTable cfg) {pconf : PortCfg}
    (henabled : ∀ c ∈ pconf.lcores, Enabled cfg c) :
    (∀ q < pconf.nb_lcores, ∃! p, p < cfg.nb_procs ∧ queueId pconf (lcoreOf cfg p) = q) ↔
      pconf.lcores.Nodup := by
  rw [lcores_nodup_iff]
  constructor
  · intro hcover i hi j hj heq
    -- whichever of the two indices is the smaller, its queue has a process, and so it is the last
    have hlast : ∀ a < pconf.nb_lcores, ∀ b < pconf.nb_lcores,
        pconf.lcore_list a = pconf.lcore_list b → ¬ a < b := by
      intro a ha b hb hab hlt
      obtain ⟨p, ⟨-, hq⟩, -⟩ := hcover a ha
      obtain ⟨-, hlist, hafter⟩ := (queueId_eq_iff a).mp hq
      exact hafter b hlt hb (hab ▸ hlist)
    have h1 := hlast i hi j hj heq
    have h2 := hlast j hj i hi heq.symm
    omega
  · intro hnodup q hq
    obtain ⟨p, hp, hlcore⟩ := henabled (pconf.lcore_list q)
      (List.mem_map.mpr ⟨q, List.mem_range.mpr hq, rfl⟩)
    refine ⟨p, ⟨hp, (queueId_eq_iff q).mpr ⟨hq, hlcore.symm, ?_⟩⟩, ?_⟩
    · intro j hj hj' heq
      have := hnodup j hj' q hq (heq.trans hlcore)
      omega
    · rintro p' ⟨hp', hq'⟩
      have hlcore' := ((queueId_eq_iff q).mp hq').2.1
      exact htable.injOn hp' hp (hlcore'.symm.trans hlcore.symm)

end Fleet

/-- On a machine that supports an accepted configuration, every queue of every port has exactly one
process and no process leaves its lists, exactly if no port names an lcore twice and no lcore is named
by more ports than a process has room for.
SOURCE: lib/ff_dpdk_if.c:314-382, lib/ff_config.c:257-346, 1278-1363, lib/ff_memory.h:78-91 -/
theorem initLcoreConf_assigns_iff (m : Machine) (args : ProcArgs) (lines : List IniLine)
    (cfg : Config) (hload : (ffLoadConfig args lines).val = some cfg) (hm : Machine.Supports m cfg) :
    QueuesAssigned m cfg ↔
      (∀ port ∈ cfg.ports, (portAt cfg port).lcores.Nodup) ∧
        ∀ p < cfg.nb_procs, (portsOf cfg p).length ≤ MAX_RX_QUEUE_PER_LCORE := by
  obtain ⟨htable, hpass⟩ := ffLoadConfig_accepted hload
  refine and_congr ?_ ?_
  · refine forall₂_congr fun port hport => ?_
    rw [← portQueues_iff htable (hpass port hport).2.1]
    refine forall₂_congr fun q hq => ?_
    refine existsUnique_congr fun p => and_congr_right fun hp => ?_
    exact polls_iff hm hp hport q
  · exact forall₂_congr fun p hp => initLcoreConf_inConf_iff hm hp

/-- A file for two processes and one port. -/
def onePortFile (lcore_list : String) : List IniLine :=
  [{ sect := "dpdk", name := "lcore_mask", value := "3" },
    { sect := "dpdk", name := "port_list", value := "0" },
    { sect := "port0", name := "addr", value := "192.168.1.2" },
    { sect := "port0", name := "netmask", value := "255.255.255.0" },
    { sect := "port0", name := "broadcast", value := "192.168.1.255" },
    { sect := "port0", name := "gateway", value := "192.168.1.1" },
    { sect := "port0", name := "lcore_list", value := lcore_list }]

/-- The configuration that the first process reads from it. -/
def onePortConfig (lcore_list : String) : Config :=
  ((ffLoadConfig (ffParseArgs 0 "primary") (onePortFile lcore_list)).val).getD {}

def onePortMachine : Machine := ⟨1, fun _ _ => true⟩

theorem onePortConfig_loaded {lcore_list : String}
    (h : ((ffLoadConfig (ffParseArgs 0 "primary") (onePortFile lcore_list)).val).isSome = true) :
    (ffLoadConfig (ffParseArgs 0 "primary") (onePortFile lcore_list)).val =
      some (onePortConfig lcore_list) := by
  unfold onePortConfig
  obtain ⟨cfg, hcfg⟩ := Option.isSome_iff_exists.mp h
  rw [hcfg, Option.getD_some]

/-- Two lcores that are named once have a queue each. -/
theorem onePortConfig_assigns : QueuesAssigned onePortMachine (onePortConfig "0-1") :=
  (initLcoreConf_assigns_iff onePortMachine (ffParseArgs 0 "primary") (onePortFile "0-1")
    (onePortConfig "0-1") (onePortConfig_loaded (by decide +kernel))
    ⟨by decide +kernel, fun _ _ => rfl⟩).mpr ⟨by decide +kernel, by decide +kernel⟩

/-- An lcore that is named twice is accepted, and the first of its queues is not polled.
SOURCE: lib/ff_dpdk_if.c:350-356 -/
theorem repeatedLcore_leaves_queue :
    (ffLoadConfig (ffParseArgs 0 "primary") (onePortFile "0,0,1")).val =
        some (onePortConfig "0,0,1") ∧
      Machine.Supports onePortMachine (onePortConfig "0,0,1") ∧
      ¬ QueuesAssigned onePortMachine (onePortConfig "0,0,1") := by
  have hm : Machine.Supports onePortMachine (onePortConfig "0,0,1") :=
    ⟨by decide +kernel, fun _ _ => rfl⟩
  refine ⟨onePortConfig_loaded (by decide +kernel), hm, fun h => ?_⟩
  obtain ⟨p, ⟨hp, hpolls⟩, -⟩ := h.1 0 (by decide +kernel) 0 (by decide +kernel)
  rw [polls_iff hm hp (by decide +kernel)] at hpolls
  have hnone : ∀ p < (onePortConfig "0,0,1").nb_procs,
      queueId (portAt (onePortConfig "0,0,1") 0) (lcoreOf (onePortConfig "0,0,1") p) ≠ 0 := by
    decide +kernel
  exact hnone p hp hpolls

end FStack.Analysis
