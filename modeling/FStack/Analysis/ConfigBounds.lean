import FStack.Analysis.ProcTable

/-!
# The tables of the configuration

The handlers compare the number of a section, or of a line, with a number that the file gave
earlier, and from above only.  `LoadOk` collects what a file has to keep to for the numbers to be
indices of the tables: for each line, in the configuration that the lines before it leave, and for the
final check.  `ffLoadConfig_inTable_iff` says that this is exactly when every access stays inside.

Accesses to `proc_lcore` need no condition but the last one, of the primary process with KNI: they
are covered by `ProcTable`.
-/

set_option autoImplicit false

namespace FStack.Analysis

open FStack.Prelude FStack.Model

variable {vlanid : ℤ}

/-! ## The files for which this holds -/

/-- The entry of a port. -/
def portAt (cfg : Config) (portid : ℤ) : PortCfg := cfg.port_cfgs.getD (fun _ => {}) portid

/-- A number is an index of a table of ports or devices. -/
def IsPortIndex (n : ℤ) : Prop := 0 ≤ n ∧ n < RTE_MAX_ETHPORTS

/-- The number of a section, if its handler does not skip it, is an index. -/
def SectionIndexOk (limit : ℤ) (sect : String) : Prop :=
  ∀ n, sscanfInt sect = some n → n ≤ limit → IsPortIndex n

/-- A line of a port section: when the table is made, the enabled ports have to fit in it. -/
def PortLineOk (cfg : Config) (l : IniLine) : Prop :=
  cfg.nb_ports ≠ 0 → cfg.port_cfgs.isSome = true ∨ l.table_alloc = true →
    (cfg.port_cfgs = none → ∀ p ∈ cfg.ports, p < RTE_MAX_ETHPORTS) ∧
      SectionIndexOk cfg.max_portid l.sect

/-- A line that puts a VLAN on a port: the ports have their table, the number is an index of it, and
the port has room for the VLAN. -/
def VlanPortidOk (cfg : Config) (value : String) : Prop :=
  atoi value ≤ cfg.max_portid →
    cfg.port_cfgs.isSome = true ∧ IsPortIndex (atoi value) ∧
      (portAt cfg (atoi value)).nb_vlan < DPDK_MAX_VLAN_FILTER

/-- The VLAN id is among the first `n` of `vlan_filter`. -/
def VlanListed (cfg : Config) (n : ℕ) (vlanid : ℤ) : Prop :=
  ∃ i < n, (cfg.vlan_filter_id i : ℤ) = vlanid

/-- A line of a VLAN section: a VLAN of `vlan_filter` is among those that the table has room for. -/
def VlanLineOk (cfg : Config) (l : IniLine) : Prop :=
  cfg.nb_vlan_filter ≠ 0 → cfg.vlan_cfgs.isSome = true ∨ l.table_alloc = true →
    ∀ n, sscanfInt l.sect = some n → VlanListed cfg cfg.nb_vlan_filter n →
      VlanListed cfg DPDK_MAX_VLAN_FILTER n ∧ (l.name = "portid" → VlanPortidOk cfg l.value)

/-- A line of a section of a virtual device or a bond. -/
def DevLineOk (nb : ℤ) (t : Option (ℤ → DevCfg)) (l : IniLine) : Prop :=
  nb ≠ 0 → t.isSome = true ∨ l.table_alloc = true → SectionIndexOk nb l.sect

/-- A line that is safe in a configuration. -/
def LineOk (cfg : Config) (l : IniLine) : Prop :=
  (l.within "port" = true → PortLineOk cfg l) ∧
    (l.within "vlan" = true → VlanLineOk cfg l) ∧
      (l.within "vdev" = true → DevLineOk cfg.nb_vdev cfg.vdev_cfgs l) ∧
        (l.within "bond" = true → DevLineOk cfg.nb_bond cfg.bond_cfgs l)

/-- A port has all its addresses. -/
def HasAddresses (pc : PortCfg) : Prop :=
  pc.addr.isSome = true ∧ pc.netmask.isSome = true ∧ pc.broadcast.isSome = true ∧
    pc.gateway.isSome = true

/-- The process is the primary one, and KNI is on. -/
def KniPrimary (args : ProcArgs) (cfg : Config) : Prop :=
  cfg.kni_enable ≠ 0 ∧ args.proc_type = "primary"

/-- The check gets as far as the lcore of the process. -/
def ReachesKni (args : ProcArgs) (cfg : Config) (pc : PortCfg) : Prop :=
  HasAddresses pc ∧ (∀ c ∈ pc.lcores, Enabled cfg c) ∧ KniPrimary args cfg

/-- An enabled port is safe to check: its entry is in the table, and so is the process. -/
def PortOk (args : ProcArgs) (cfg : Config) (portid : ℕ) : Prop :=
  cfg.port_cfgs.isSome = true ∧ portid < RTE_MAX_ETHPORTS ∧
    (ReachesKni args cfg (portAt cfg portid) →
      cfg.proc_lcore.isSome = true ∧ 0 ≤ args.proc_id ∧ args.proc_id < RTE_MAX_LCORE)

/-- An enabled port passes the check. -/
def PortPasses (args : ProcArgs) (cfg : Config) (portid : ℕ) : Prop :=
  HasAddresses (portAt cfg portid) ∧ (∀ c ∈ (portAt cfg portid).lcores, Enabled cfg c) ∧
    (KniPrimary args cfg →
      cfg.proc_lcore.getD (fun _ => 0) args.proc_id.toNat ∈ (portAt cfg portid).lcores)

/-- The words of the section `kni` are valid. -/
def KniWords (cfg : Config) : Prop :=
  (cfg.kni_enable ≠ 0 → cfg.kni_method ≠ none) ∧
    (∀ m, cfg.kni_method = some m → strcaseeq m "accept" = true ∨ strcaseeq m "reject" = true) ∧
      ∀ a, cfg.kni_action = some a → strcaseeq a "alltokni" = true ∨ strcaseeq a "alltoff" = true ∨
        strcaseeq a "default" = true

/-- The final check is safe: each enabled port is, if those before it pass. -/
def CheckOk (args : ProcArgs) (cfg : Config) : Prop :=
  KniWords cfg → ∀ pre portid post, cfg.ports = pre ++ portid :: post →
    (∀ p ∈ pre, PortPasses args cfg p) → PortOk args cfg portid

/-- Every line of the file is safe in the configuration that the accepted lines before it leave, and
the final check is. -/
def LoadOk (args : ProcArgs) (lines : List IniLine) : Prop :=
  (∀ pre l post cfg, lines = pre ++ l :: post → (iniParse args.proc_id {} pre).val = (cfg, true) →
    LineOk cfg l) ∧
  ∀ cfg, (iniParse args.proc_id {} lines).val = (cfg, true) → CheckOk args cfg

/-! ## The handlers -/

variable {cfg : Config} {l : IniLine} {proc_id : ℤ}

theorem noMemory_iff {β : Type} {t : Option β} {alloc : Bool} :
    (t.isNone && !alloc) = true ↔ ¬ (t.isSome = true ∨ alloc = true) := by
  cases t <;> cases alloc <;> simp

theorem inTable_dev {table : CfgTable} {n : ℤ} (ht : table.size = RTE_MAX_ETHPORTS) :
    InTable ⟨table, n, true⟩ ↔ IsPortIndex n := by
  simp [InTable, IsPortIndex, ht]

theorem inTable_port {t : Option (ℤ → PortCfg)} {n : ℤ} :
    InTable ⟨.portCfgs, n, t.isSome⟩ ↔ t.isSome = true ∧ IsPortIndex n := Iff.rfl

/-- The table of the ports is made for ports that fit in it.
SOURCE: lib/ff_config.c:550-568 -/
theorem initPortCfgs_inTable_iff (h : ProcTable cfg) :
    (initPortCfgs cfg).Every InTable ↔
      (cfg.port_cfgs = none → ∀ p ∈ cfg.ports, p < RTE_MAX_ETHPORTS) := by
  unfold initPortCfgs
  cases hp : cfg.port_cfgs with
  | some t => simp
  | none =>
    have hproc : ∀ k < cfg.nb_procs, InTable ⟨.procLcore, k, cfg.proc_lcore.isSome⟩ := by
      intro k hk
      have := h.le
      exact ⟨h.isSome (by omega), by simp, by simp only [CfgTable.size]; omega⟩
    simp only [Option.isSome_none, Bool.false_eq_true, if_false, Logged.every_bind,
      Logged.every_emits, Logged.every_pure, and_true, List.mem_flatMap, List.mem_range,
      List.mem_cons, List.mem_map, forall_exists_index, and_imp, forall_const, Config.ports]
    constructor
    · rintro hall p i hi rfl
      have := (hall _ i hi (.inl rfl)).2.2
      simpa [CfgTable.size] using this
    · rintro hfit e i hi (rfl | ⟨k, hk, rfl⟩)
      · exact ⟨rfl, by simp, by simpa [CfgTable.size] using hfit _ i hi rfl⟩
      · exact hproc k hk

theorem initPortCfgs_val (cfg : Config) :
    (initPortCfgs cfg).val.port_cfgs.isSome = true ∧
      (initPortCfgs cfg).val.max_portid = cfg.max_portid ∧
      (initPortCfgs cfg).val.nb_procs = cfg.nb_procs ∧
      (initPortCfgs cfg).val.proc_lcore = cfg.proc_lcore := by
  unfold initPortCfgs
  split
  · rename_i h
    exact ⟨h, rfl, rfl, rfl⟩
  · exact ⟨rfl, rfl, rfl, rfl⟩

/-- `port_cfg_handler`.
SOURCE: lib/ff_config.c:541-647 -/
theorem portCfgHandler_inTable_iff (h : ProcTable cfg) :
    (portCfgHandler cfg l).Every InTable ↔ PortLineOk cfg l := by
  unfold portCfgHandler PortLineOk
  by_cases h0 : cfg.nb_ports = 0
  · simp [h0]
  by_cases ha : cfg.port_cfgs.isSome = true ∨ l.table_alloc = true
  swap
  · simp only [h0, noMemory_iff, ha, not_false_eq_true, if_true, if_false, Logged.every_pure,
      false_implies, implies_true]
  · obtain ⟨hsome, hmax, -, -⟩ := initPortCfgs_val cfg
    simp only [h0, noMemory_iff, ha, not_true_eq_false, if_false, Logged.every_bind,
      initPortCfgs_inTable_iff h, ne_eq, not_false_eq_true, forall_const, SectionIndexOk]
    refine and_congr_right fun _ => ?_
    cases hs : sscanfInt l.sect with
    | none => simp
    | some n =>
      simp only [Option.some.injEq, forall_eq', hmax]
      by_cases hn : (cfg.max_portid : ℤ) < n
      · simp [hn, not_le.mpr hn]
      · simp [hn, not_lt.mp hn, touch, @inTable_dev .portCfgs n rfl, hsome]

theorem vlanIndex_le {i : ℕ} (hi : i < cfg.nb_vlan_filter) (heq : (cfg.vlan_filter_id i : ℤ) = vlanid) :
    vlanIndex cfg vlanid ≤ i := by
  unfold vlanIndex
  cases hf : (List.range cfg.nb_vlan_filter).find? fun i =>
      (cfg.vlan_filter_id i : ℤ) == vlanid with
  | none => simpa [heq] using List.find?_eq_none.mp hf i (List.mem_range.mpr hi)
  | some j =>
    by_contra hlt
    have hfirst := (List.find?_range_eq_some.mp hf).2.2 i (by simpa using hlt)
    simp [heq] at hfirst

theorem vlanIndex_listed (h : vlanIndex cfg vlanid < cfg.nb_vlan_filter) :
    (cfg.vlan_filter_id (vlanIndex cfg vlanid) : ℤ) = vlanid := by
  unfold vlanIndex at h ⊢
  cases hf : (List.range cfg.nb_vlan_filter).find? fun i =>
      (cfg.vlan_filter_id i : ℤ) == vlanid with
  | none => simp [hf] at h
  | some j => simpa using (List.find?_range_eq_some.mp hf).1

theorem vlanIndex_lt_filter_iff :
    vlanIndex cfg vlanid < cfg.nb_vlan_filter ↔ VlanListed cfg cfg.nb_vlan_filter vlanid := by
  constructor
  · intro h
    exact ⟨_, h, vlanIndex_listed h⟩
  · rintro ⟨i, hi, heq⟩
    exact (vlanIndex_le hi heq).trans_lt hi

theorem vlanIndex_lt_iff (h : vlanIndex cfg vlanid < cfg.nb_vlan_filter) (k : ℕ) :
    vlanIndex cfg vlanid < k ↔ VlanListed cfg k vlanid := by
  constructor
  · intro hk
    exact ⟨_, hk, vlanIndex_listed h⟩
  · rintro ⟨i, hi, heq⟩
    rcases Nat.lt_or_ge i cfg.nb_vlan_filter with hlt | hge
    · exact (vlanIndex_le hlt heq).trans_lt hi
    · omega

/-- The line `portid`.
SOURCE: lib/ff_config.c:697-706 -/
theorem vlanPortid_inTable_iff (cfg : Config) (idx : ℕ) (l : IniLine) :
    (vlanPortid cfg idx l).Every InTable ↔ VlanPortidOk cfg l.value := by
  unfold vlanPortid VlanPortidOk
  by_cases hn : (cfg.max_portid : ℤ) < atoi l.value
  · simp [hn, not_le.mpr hn]
  · have hroom : InTable ⟨.portVlanCfgs, ((portAt cfg (atoi l.value)).nb_vlan : ℕ), true⟩ ↔
        (portAt cfg (atoi l.value)).nb_vlan < DPDK_MAX_VLAN_FILTER := by
      simp [InTable, CfgTable.size]
    simp only [hn, if_false, not_lt.mp hn, forall_const, touch, Logged.every_bind,
      Logged.every_emit, inTable_port, Logged.every_pure, and_true, ← hroom, and_assoc]
    rfl

theorem vlanPortidOk_congr {cfg' : Config} (hmax : cfg'.max_portid = cfg.max_portid)
    (hports : cfg'.port_cfgs = cfg.port_cfgs) (value : String) :
    VlanPortidOk cfg' value ↔ VlanPortidOk cfg value := by
  unfold VlanPortidOk portAt
  rw [hmax, hports]

/-- A line of a VLAN section, once the table is there.
SOURCE: lib/ff_config.c:669-757 -/
theorem vlanSection_inTable_iff (hsome : cfg.vlan_cfgs.isSome = true)
    (hidx : vlanIndex cfg vlanid < cfg.nb_vlan_filter) (f : VlanCfg → VlanCfg) (ok : Bool) :
    Logged.Every InTable (do
      touch .vlanCfgs cfg.vlan_cfgs (vlanIndex cfg vlanid)
      let cfg' := setVlan cfg (vlanIndex cfg vlanid) f
      if l.name = "portid" then vlanPortid cfg' (vlanIndex cfg vlanid) l
      else if l.name = "vip_addr" ∨ l.name = "ipfw_pr" ∨ l.name = "vip_addr6" then
        return (cfg', ok)
      else return (cfg', true)) ↔
    VlanListed cfg DPDK_MAX_VLAN_FILTER vlanid ∧ (l.name = "portid" → VlanPortidOk cfg l.value) := by
  have hin : InTable ⟨.vlanCfgs, (vlanIndex cfg vlanid : ℕ), cfg.vlan_cfgs.isSome⟩ ↔
      VlanListed cfg DPDK_MAX_VLAN_FILTER vlanid := by
    rw [← vlanIndex_lt_iff hidx]
    simp [InTable, CfgTable.size, hsome]
  simp only [touch, Logged.every_bind, Logged.every_emit, hin]
  refine and_congr_right fun _ => ?_
  by_cases hp : l.name = "portid"
  · simp only [hp, if_true, forall_const, vlanPortid_inTable_iff]
    exact vlanPortidOk_congr rfl rfl _
  · simp only [hp, if_false, false_implies, iff_true]
    split
    · exact Logged.every_pure _
    · exact Logged.every_pure _

/-- `vlan_cfg_handler`.
SOURCE: lib/ff_config.c:649-757 -/
theorem vlanCfgHandler_inTable_iff :
    (vlanCfgHandler cfg l).Every InTable ↔ VlanLineOk cfg l := by
  unfold vlanCfgHandler VlanLineOk
  by_cases h0 : cfg.nb_vlan_filter = 0
  · simp [h0]
  by_cases ha : cfg.vlan_cfgs.isSome = true ∨ l.table_alloc = true
  swap
  · simp only [h0, noMemory_iff, ha, not_false_eq_true, if_true, if_false, Logged.every_pure,
      false_implies, implies_true]
  · simp only [h0, noMemory_iff, ha, not_true_eq_false, if_false, ne_eq, not_false_eq_true,
      forall_const]
    generalize hcfg' : (if cfg.vlan_cfgs.isSome = true then cfg
      else { cfg with vlan_cfgs := some fun _ => {} }) = cfg'
    obtain ⟨hsome, hfilter, hids, hmax, hports⟩ :
        cfg'.vlan_cfgs.isSome = true ∧ cfg'.nb_vlan_filter = cfg.nb_vlan_filter ∧
          cfg'.vlan_filter_id = cfg.vlan_filter_id ∧ cfg'.max_portid = cfg.max_portid ∧
          cfg'.port_cfgs = cfg.port_cfgs := by
      subst hcfg'
      split
      · rename_i hv
        exact ⟨hv, rfl, rfl, rfl, rfl⟩
      · exact ⟨rfl, rfl, rfl, rfl, rfl⟩
    have hlisted : ∀ k n, VlanListed cfg k n ↔ VlanListed cfg' k n := by
      intro k n
      simp only [VlanListed, hids]
    cases hs : sscanfInt l.sect with
    | none => simp
    | some n =>
      simp only [Option.some.injEq, forall_eq', hlisted, ← hfilter, ← vlanIndex_lt_filter_iff,
        ← vlanPortidOk_congr hmax hports]
      by_cases hidx : vlanIndex cfg' n < cfg'.nb_vlan_filter
      · simp only [not_le.mpr hidx, if_false, hidx, forall_const]
        exact vlanSection_inTable_iff hsome hidx _ _
      · simp [not_lt.mp hidx, hidx]

/-- `vdev_cfg_handler` and `bond_cfg_handler`.
SOURCE: lib/ff_config.c:759-878 -/
theorem devCfgHandler_inTable_iff {table : CfgTable} (ht : table.size = RTE_MAX_ETHPORTS) (nb : ℤ)
    (t : Option (ℤ → DevCfg)) :
    (devCfgHandler table nb t l).Every InTable ↔ DevLineOk nb t l := by
  unfold devCfgHandler DevLineOk SectionIndexOk
  by_cases h0 : nb = 0
  · simp [h0]
  by_cases ha : t.isSome = true ∨ l.table_alloc = true
  swap
  · simp only [h0, noMemory_iff, ha, not_false_eq_true, if_true, if_false, Logged.every_pure,
      false_implies, implies_true]
  · simp only [h0, noMemory_iff, ha, not_true_eq_false, if_false, ne_eq, not_false_eq_true,
      forall_const]
    cases hs : sscanfInt l.sect with
    | none => simp
    | some n =>
      simp only [Option.some.injEq, forall_eq']
      by_cases hn : nb < n
      · simp [hn, not_le.mpr hn]
      · simp [hn, not_lt.mp hn, touch, inTable_dev ht]

/-- Sections that no table belongs to. -/
theorem lineOk_of_sect {cfg : Config} {l : IniLine} {sect : String} (hs : l.sect = sect)
    (hw : ∀ word ∈ ["port", "vlan", "vdev", "bond"], sect.toList.take 4 ≠ word.toList) :
    LineOk cfg l := by
  have hnot : ∀ word ∈ ["port", "vlan", "vdev", "bond"], ¬ l.within word = true := by
    intro word hmem hwithin
    exact hw word hmem (by simpa [IniLine.within, hs] using hwithin)
  simp only [List.forall_mem_cons, List.not_mem_nil, false_implies, implies_true, and_true] at hnot
  obtain ⟨h1, h2, h3, h4⟩ := hnot
  exact ⟨fun h => absurd h h1, fun h => absurd h h2, fun h => absurd h h3, fun h => absurd h h4⟩

/-- A section belongs to one table at most. -/
theorem within_unique {w w' : String} (h : l.within w = true) (hne : w.toList ≠ w'.toList) :
    ¬ l.within w' = true := by
  simp only [IniLine.within, decide_eq_true_eq] at h ⊢
  rw [h]
  exact hne

/-- `ini_parse_handler`, on one line.
SOURCE: lib/ff_config.c:971-1086 -/
theorem iniParseHandler_inTable_iff (h : ProcTable cfg) :
    (iniParseHandler proc_id cfg l).Every InTable ↔ LineOk cfg l := by
  unfold iniParseHandler
  by_cases hdpdk : l.sect = "dpdk"
  · simp only [hdpdk, if_true, lineOk_of_sect hdpdk (by decide), iff_true]
    repeat' first | exact Logged.every_pure _ | split
  by_cases hkni : l.sect = "kni"
  · simp only [hkni, if_true, lineOk_of_sect hkni (by decide), iff_true]
    repeat' first | exact Logged.every_pure _ | split
  by_cases hboot : l.sect = "freebsd.boot"
  · simp only [hboot, if_true, lineOk_of_sect hboot (by decide), iff_true]
    repeat' first | exact Logged.every_pure _ | split
  by_cases hsysctl : l.sect = "freebsd.sysctl"
  · simp only [hsysctl, if_true, lineOk_of_sect hsysctl (by decide), iff_true]
    exact Logged.every_pure _
  simp only [hdpdk, hkni, hboot, hsysctl, if_false]
  unfold LineOk
  by_cases hport : l.within "port" = true
  · have hvlan := within_unique hport (by decide : "port".toList ≠ "vlan".toList)
    have hvdev := within_unique hport (by decide : "port".toList ≠ "vdev".toList)
    have hbond := within_unique hport (by decide : "port".toList ≠ "bond".toList)
    simp only [hport, hvlan, hvdev, hbond, if_true, forall_const, false_implies, and_true,
      Bool.false_eq_true, portCfgHandler_inTable_iff h]
  by_cases hvlan : l.within "vlan" = true
  · have hvdev := within_unique hvlan (by decide : "vlan".toList ≠ "vdev".toList)
    have hbond := within_unique hvlan (by decide : "vlan".toList ≠ "bond".toList)
    simp only [hport, hvlan, hvdev, hbond, if_true, if_false, forall_const, false_implies, and_true,
      true_and, Bool.false_eq_true, vlanCfgHandler_inTable_iff]
  by_cases hvdev : l.within "vdev" = true
  · have hbond := within_unique hvdev (by decide : "vdev".toList ≠ "bond".toList)
    simp only [hport, hvlan, hvdev, hbond, if_true, if_false, forall_const, false_implies, and_true,
      true_and, Bool.false_eq_true, vdevCfgHandler, Logged.every_bind, Logged.every_pure,
      @devCfgHandler_inTable_iff _ .vdevCfgs rfl]
  by_cases hbond : l.within "bond" = true
  · simp only [hport, hvlan, hvdev, hbond, if_true, if_false, forall_const, false_implies, and_true,
      true_and, Bool.false_eq_true, bondCfgHandler, Logged.every_bind, Logged.every_pure,
      @devCfgHandler_inTable_iff _ .bondCfgs rfl]
  · simp only [hport, hvlan, hvdev, hbond, if_false, Bool.false_eq_true, false_implies, and_self,
      iff_true]
    split
    · exact Logged.every_pure _
    · exact Logged.every_pure _

/-! ## The whole file -/

/-- The table of the processes is as it was. -/
def SameProcs (cfg cfg' : Config) : Prop :=
  cfg'.nb_procs = cfg.nb_procs ∧ cfg'.proc_lcore = cfg.proc_lcore

theorem SameProcs.refl (cfg : Config) : SameProcs cfg cfg := ⟨rfl, rfl⟩

theorem portCfgHandler_sameProcs (cfg : Config) (l : IniLine) :
    SameProcs cfg (portCfgHandler cfg l).val.1 := by
  have hinit : SameProcs cfg (initPortCfgs cfg).val :=
    ⟨(initPortCfgs_val cfg).2.2.1, (initPortCfgs_val cfg).2.2.2⟩
  unfold portCfgHandler
  split
  · exact .refl cfg
  · split
    · exact .refl cfg
    · simp only [Logged.val_bind]
      split
      · exact hinit
      · split
        · exact hinit
        · exact hinit

theorem vlanPortid_sameProcs (cfg : Config) (idx : ℕ) (l : IniLine) :
    SameProcs cfg (vlanPortid cfg idx l).val.1 := by
  unfold vlanPortid
  dsimp only
  split
  · exact .refl cfg
  · exact .refl cfg

theorem vlanCfgHandler_sameProcs (cfg : Config) (l : IniLine) :
    SameProcs cfg (vlanCfgHandler cfg l).val.1 := by
  unfold vlanCfgHandler
  split
  · exact .refl cfg
  · split
    · exact .refl cfg
    · generalize hcfg' : (if cfg.vlan_cfgs.isSome = true then cfg
        else { cfg with vlan_cfgs := some fun _ => {} }) = cfg'
      have hsame : SameProcs cfg cfg' := by
        subst hcfg'
        split <;> exact .refl cfg
      dsimp only
      split
      · exact hsame
      · split
        · exact hsame
        · simp only [Logged.val_bind]
          split
          · exact ⟨(vlanPortid_sameProcs _ _ _).1.trans hsame.1,
              (vlanPortid_sameProcs _ _ _).2.trans hsame.2⟩
          · split <;> exact hsame

/-- Only the line `lcore_mask` writes the table of the processes.
SOURCE: lib/ff_config.c:971-1086 -/
theorem iniParseHandler_sameProcs (h : ¬ (l.sect = "dpdk" ∧ l.name = "lcore_mask")) :
    SameProcs cfg (iniParseHandler proc_id cfg l).val.1 := by
  unfold iniParseHandler
  by_cases hdpdk : l.sect = "dpdk"
  · have hname : l.name ≠ "lcore_mask" := fun hn => h ⟨hdpdk, hn⟩
    simp only [hdpdk, if_true, hname, if_false, parsePortList]
    repeat' first | exact .refl cfg | split
  · simp only [hdpdk, if_false]
    by_cases hport : l.within "port" = true
    · simp only [hport, if_true]
      repeat' first | exact portCfgHandler_sameProcs cfg l | exact .refl cfg | split
    · by_cases hvlan : l.within "vlan" = true
      · simp only [hport, hvlan, if_true, if_false, Bool.false_eq_true]
        repeat' first | exact vlanCfgHandler_sameProcs cfg l | exact .refl cfg | split
      · simp only [hport, hvlan, if_false, Bool.false_eq_true, vdevCfgHandler, bondCfgHandler]
        repeat' first | exact .refl cfg | split

/-- An accepted line keeps the table of the processes in order.
SOURCE: lib/ff_config.c:971-1086 -/
theorem ProcTable.iniParseHandler (h : ProcTable cfg)
    (hok : (iniParseHandler proc_id cfg l).val.2 = true) :
    ProcTable (FStack.Model.iniParseHandler proc_id cfg l).val.1 := by
  by_cases hmask : l.sect = "dpdk" ∧ l.name = "lcore_mask"
  · simp only [FStack.Model.iniParseHandler, hmask.1, hmask.2, if_true, Logged.val_pure] at hok ⊢
    exact ProcTable.lcoreMaskLine hok
  · have hsame : SameProcs cfg (FStack.Model.iniParseHandler proc_id cfg l).val.1 :=
      iniParseHandler_sameProcs hmask
    exact h.congr hsame.1 hsame.2

/-- So do the accepted lines of a file. -/
theorem ProcTable.iniParse {lines : List IniLine} (h : ProcTable cfg)
    (hok : (iniParse proc_id cfg lines).val.2 = true) :
    ProcTable (FStack.Model.iniParse proc_id cfg lines).val.1 := by
  induction lines generalizing cfg with
  | nil => exact h
  | cons l rest ih =>
    simp only [FStack.Model.iniParse, Logged.val_bind] at hok ⊢
    split at hok
    · rename_i hl
      simp only [hl, if_true]
      exact ih (h.iniParseHandler hl) hok
    · simp at hok

/-- The lines of a file, from any configuration on.
SOURCE: lib/ff_ini_parser.c:70-180 -/
theorem iniParse_inTable_iff (h : ProcTable cfg) (lines : List IniLine) :
    (iniParse proc_id cfg lines).Every InTable ↔
      ∀ pre l post cfg', lines = pre ++ l :: post →
        (iniParse proc_id cfg pre).val = (cfg', true) → LineOk cfg' l := by
  induction lines generalizing cfg with
  | nil => simp [iniParse]
  | cons l rest ih =>
    simp only [iniParse, Logged.every_bind, iniParseHandler_inTable_iff h]
    constructor
    · rintro ⟨hl, hrest⟩ pre l' post cfg' hsplit hpre
      cases pre with
      | nil =>
        obtain ⟨rfl, -⟩ := List.cons.inj hsplit
        obtain ⟨rfl, -⟩ := Prod.mk.inj hpre
        exact hl
      | cons l₁ pre =>
        obtain ⟨rfl, htail⟩ := List.cons.inj hsplit
        simp only [iniParse, Logged.val_bind] at hpre
        split at hpre
        · rename_i hok
          rw [if_pos hok, ih (h.iniParseHandler hok)] at hrest
          exact hrest pre l' post cfg' htail hpre
        · simp at hpre
    · intro hall
      refine ⟨hall [] l rest cfg rfl rfl, ?_⟩
      split
      · rename_i hok
        rw [ih (h.iniParseHandler hok)]
        intro pre l' post cfg' hsplit hpre
        refine hall (l :: pre) l' post cfg' (by rw [hsplit]; rfl) ?_
        simpa [iniParse, hok] using hpre
      · exact Logged.every_pure _

/-! ## The final check -/

variable {args : ProcArgs}

theorem hasAddresses_iff (pc : PortCfg) :
    (pc.addr.isNone || pc.netmask.isNone || pc.broadcast.isNone || pc.gateway.isNone) = true ↔
      ¬ HasAddresses pc := by
  unfold HasAddresses
  cases pc.addr <;> cases pc.netmask <;> cases pc.broadcast <;> cases pc.gateway <;> simp

/-- The lcore of the primary process is read from the table, where KNI is on.
SOURCE: lib/ff_config.c:1340-1359 -/
theorem checkKniLcore_inTable_iff (pc : PortCfg) :
    (checkKniLcore args cfg pc).Every InTable ↔
      (KniPrimary args cfg →
        cfg.proc_lcore.isSome = true ∧ 0 ≤ args.proc_id ∧ args.proc_id < RTE_MAX_LCORE) := by
  unfold checkKniLcore KniPrimary
  split <;> rename_i hk
  · simp [hk, touch, InTable, CfgTable.size]
  · simp [hk]

theorem checkKniLcore_val_iff (pc : PortCfg) :
    (checkKniLcore args cfg pc).val = true ↔
      (KniPrimary args cfg → cfg.proc_lcore.getD (fun _ => 0) args.proc_id.toNat ∈ pc.lcores) := by
  unfold checkKniLcore KniPrimary
  split <;> rename_i hk
  · simp [hk]
  · simp [hk]

/-- The check of the entry of a port, before a check `k` of the other ports.
SOURCE: lib/ff_config.c:1324-1360 -/
theorem checkEntry_inTable_iff (h : ProcTable cfg) (pc : PortCfg) (k : Configuring Bool) :
    Logged.Every InTable (do
      if pc.addr.isNone || pc.netmask.isNone || pc.broadcast.isNone || pc.gateway.isNone then
        return false
      else if !(← checkLcores cfg pc.lcores) then return false
      else if !(← checkKniLcore args cfg pc) then return false
      else k) ↔
    (ReachesKni args cfg pc →
      cfg.proc_lcore.isSome = true ∧ 0 ≤ args.proc_id ∧ args.proc_id < RTE_MAX_LCORE) ∧
    (HasAddresses pc → (∀ c ∈ pc.lcores, Enabled cfg c) →
      (KniPrimary args cfg → cfg.proc_lcore.getD (fun _ => 0) args.proc_id.toNat ∈ pc.lcores) →
        k.Every InTable) := by
  unfold ReachesKni
  by_cases haddr : HasAddresses pc
  swap
  · rw [if_pos ((hasAddresses_iff pc).mpr haddr)]
    simp [haddr]
  rw [if_neg (by rw [hasAddresses_iff]; exact not_not_intro haddr)]
  simp only [Logged.every_bind, checkLcores_inTable h, true_and, haddr, forall_const]
  by_cases hcores : ∀ c ∈ pc.lcores, Enabled cfg c
  swap
  · rw [if_pos (by simp [← checkLcores_val_iff h] at hcores; simp [hcores])]
    simp [hcores]
  rw [if_neg (by simp [(checkLcores_val_iff h pc.lcores).mpr hcores])]
  simp only [Logged.every_bind, checkKniLcore_inTable_iff, and_iff_right hcores]
  refine and_congr_right fun _ => ?_
  by_cases hkni : KniPrimary args cfg →
      cfg.proc_lcore.getD (fun _ => 0) args.proc_id.toNat ∈ pc.lcores
  · rw [if_neg (by simp [(checkKniLcore_val_iff pc).mpr hkni])]
    exact ⟨fun hk _ _ => hk, fun hk => hk hcores hkni⟩
  · rw [← checkKniLcore_val_iff, Bool.not_eq_true] at hkni
    rw [← checkKniLcore_val_iff, hkni]
    simp

/-- The check of one port, and of the rest if it passes.
SOURCE: lib/ff_config.c:1321-1360 -/
theorem checkPorts_cons_inTable_iff (h : ProcTable cfg) (portid : ℕ) (rest : List ℕ) :
    (checkPorts args cfg (portid :: rest)).Every InTable ↔
      PortOk args cfg portid ∧
        (PortPasses args cfg portid → (checkPorts args cfg rest).Every InTable) := by
  have hport : InTable ⟨.portCfgs, portid, cfg.port_cfgs.isSome⟩ ↔
      cfg.port_cfgs.isSome = true ∧ portid < RTE_MAX_ETHPORTS := by
    simp [InTable, CfgTable.size]
  rw [checkPorts, Logged.every_bind, touch, Logged.every_emit, hport]
  have hentry := @checkEntry_inTable_iff cfg args h (portAt cfg portid)
    (checkPorts args cfg rest)
  rw [PortOk, PortPasses, and_imp, and_imp, and_assoc, and_assoc, and_assoc, ← hentry]
  rfl

/-- The check of a list of ports: each port that is reached has to be safe.
SOURCE: lib/ff_config.c:1321-1360 -/
theorem checkPorts_inTable_iff (h : ProcTable cfg) (ports : List ℕ) :
    (checkPorts args cfg ports).Every InTable ↔
      ∀ pre portid post, ports = pre ++ portid :: post →
        (∀ p ∈ pre, PortPasses args cfg p) → PortOk args cfg portid := by
  induction ports with
  | nil => simp [checkPorts]
  | cons portid rest ih =>
    rw [checkPorts_cons_inTable_iff h, ih]
    constructor
    · rintro ⟨hport, hrest⟩ pre p post hsplit hpre
      cases pre with
      | nil =>
        obtain ⟨rfl, -⟩ := List.cons.inj hsplit
        exact hport
      | cons q pre =>
        obtain ⟨rfl, htail⟩ := List.cons.inj hsplit
        rw [List.forall_mem_cons] at hpre
        exact hrest hpre.1 pre p post htail hpre.2
    · intro hall
      refine ⟨hall [] portid rest rfl (by simp), fun hpass pre p post hsplit hpre => ?_⟩
      refine hall (portid :: pre) p post (by rw [hsplit]; rfl) ?_
      rw [List.forall_mem_cons]
      exact ⟨hpass, hpre⟩

theorem kniMethod_iff :
    (cfg.kni_method.any fun m => !strcaseeq m "accept" && !strcaseeq m "reject") = true ↔
      ¬ ∀ m, cfg.kni_method = some m →
        strcaseeq m "accept" = true ∨ strcaseeq m "reject" = true := by
  cases cfg.kni_method <;> simp

theorem kniAction_iff :
    (cfg.kni_action.any fun a =>
      !strcaseeq a "alltokni" && !strcaseeq a "alltoff" && !strcaseeq a "default") = true ↔
      ¬ ∀ a, cfg.kni_action = some a → strcaseeq a "alltokni" = true ∨
        strcaseeq a "alltoff" = true ∨ strcaseeq a "default" = true := by
  cases cfg.kni_action <;> simp [and_assoc]

/-- `ff_check_config`.
SOURCE: lib/ff_config.c:1278-1363 -/
theorem ffCheckConfig_inTable_iff (h : ProcTable cfg) :
    (ffCheckConfig args cfg).Every InTable ↔ CheckOk args cfg := by
  unfold ffCheckConfig CheckOk KniWords
  rw [← checkPorts_inTable_iff h]
  by_cases hmethod : cfg.kni_enable ≠ 0 → cfg.kni_method ≠ none
  swap
  · rw [if_pos (by simpa using hmethod)]
    simp [hmethod]
  rw [if_neg (by simpa using hmethod), if_congr kniMethod_iff rfl rfl,
    if_congr kniAction_iff rfl rfl, and_iff_right hmethod]
  by_cases hm : ∀ m, cfg.kni_method = some m →
      strcaseeq m "accept" = true ∨ strcaseeq m "reject" = true
  swap
  · rw [if_pos hm]
    simp only [Logged.every_pure, hm, false_and, false_implies]
  rw [if_neg (not_not_intro hm), and_iff_right hm]
  split
  · rename_i ha
    exact ⟨fun _ hw => absurd hw ha, fun _ => Logged.every_pure _⟩
  · rename_i ha
    exact ⟨fun hp _ => hp, fun hp => hp (not_not.mp ha)⟩

/-- A list of ports passes only if each of them does.
SOURCE: lib/ff_config.c:1321-1360 -/
theorem portPasses_of_checkPorts (h : ProcTable cfg) {ports : List ℕ}
    (hval : (checkPorts args cfg ports).val = true) : ∀ p ∈ ports, PortPasses args cfg p := by
  induction ports with
  | nil => simp
  | cons portid rest ih =>
    simp only [checkPorts, Logged.val_bind] at hval
    split at hval
    · cases hval
    rename_i haddr
    simp only [Logged.val_bind] at hval
    split at hval
    · cases hval
    rename_i hcores
    simp only [Logged.val_bind] at hval
    split at hval
    · cases hval
    rename_i hkni
    simp only [Bool.not_eq_true, Bool.not_eq_false'] at hcores hkni
    rw [List.forall_mem_cons]
    refine ⟨⟨?_, ?_, ?_⟩, ih hval⟩
    · rwa [hasAddresses_iff, not_not] at haddr
    · exact (checkLcores_val_iff h _).mp hcores
    · exact (checkKniLcore_val_iff _).mp hkni

/-- The table of the processes of an accepted file is in order, and its ports pass the check.
SOURCE: lib/ff_config.c:1395-1447 -/
theorem ffLoadConfig_accepted {lines : List IniLine}
    (hload : (ffLoadConfig args lines).val = some cfg) :
    ProcTable cfg ∧ ∀ p ∈ cfg.ports, PortPasses args cfg p := by
  simp only [ffLoadConfig, Logged.val_bind] at hload
  split at hload
  swap
  · cases hload
  rename_i hok
  have htable := ProcTable.empty.iniParse hok
  simp only [Logged.val_bind, Logged.val_pure] at hload
  split at hload
  swap
  · cases hload
  rename_i hcheck
  obtain rfl := Option.some.inj hload
  refine ⟨htable, ?_⟩
  unfold ffCheckConfig at hcheck
  split at hcheck
  · cases hcheck
  split at hcheck
  · cases hcheck
  split at hcheck
  · cases hcheck
  exact portPasses_of_checkPorts htable hcheck

/-- Loading a file stays inside the tables of the configuration exactly if every line is safe where
it stands and the final check is.
SOURCE: lib/ff_config.c:541-878, 1278-1363, 1395-1447 -/
theorem ffLoadConfig_inTable_iff (args : ProcArgs) (lines : List IniLine) :
    (ffLoadConfig args lines).Every InTable ↔ LoadOk args lines := by
  unfold ffLoadConfig LoadOk
  rw [Logged.every_bind, iniParse_inTable_iff ProcTable.empty]
  refine and_congr_right fun _ => ?_
  cases hval : (iniParse args.proc_id {} lines).val with
  | mk cfg ok =>
    cases ok with
    | false => simp
    | true =>
      have htable : ProcTable cfg := by
        have := @ProcTable.iniParse {} args.proc_id lines ProcTable.empty (by rw [hval])
        rwa [hval] at this
      simp [ffCheckConfig_inTable_iff htable]

/-- A file that enables port 0 and has a section for port -1. -/
def negativePortFile : List IniLine :=
  [{ sect := "dpdk", name := "port_list", value := "0" },
    { sect := "port-1", name := "addr", value := "192.168.1.2" }]

/-- The section of port -1 is not skipped: its entry is the one before the table.
SOURCE: lib/ff_config.c:577-584 -/
theorem negativePortFile_leaves_table :
    ¬ (ffLoadConfig (ffParseArgs 0 "primary") negativePortFile).Every InTable := by
  intro h
  have hmem : (⟨.portCfgs, -1, true⟩ : TableAccess) ∈
      (ffLoadConfig (ffParseArgs 0 "primary") negativePortFile).log := by decide
  exact absurd (h _ hmem).2.1 (by decide)

end FStack.Analysis
