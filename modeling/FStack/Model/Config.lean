import FStack.Model.ConfigText
import FStack.Prelude.Logged

/-!
# Loading the configuration

`ff_load_config` (`lib/ff_config.c`) feeds the lines of the file, one by one, to
`ini_parse_handler` and then checks the whole with `ff_check_config`.  Ports, VLANs, virtual devices
and bonds have tables of a fixed size that are allocated by the first section that needs them and
indexed by numbers from the file.

The functions are computations that log every element of these tables they touch, with the index as
the code computes it.  A table is a function on all integers, so that the model says what the code
computes even where it leaves the table; that such an access does not happen is a statement about the
log.
-/

set_option autoImplicit false

namespace FStack.Model

open FStack.Prelude

/-- The tables that are indexed by numbers from the file. -/
inductive CfgTable where
  | portCfgs
  | vlanCfgs
  | portVlanCfgs
  | vdevCfgs
  | bondCfgs
  | procLcore
deriving DecidableEq, Repr

def CfgTable.size : CfgTable → ℕ
  | .portCfgs => RTE_MAX_ETHPORTS
  | .vlanCfgs => DPDK_MAX_VLAN_FILTER
  | .portVlanCfgs => DPDK_MAX_VLAN_FILTER
  | .vdevCfgs => RTE_MAX_ETHPORTS
  | .bondCfgs => RTE_MAX_ETHPORTS
  | .procLcore => RTE_MAX_LCORE

/-- An element of a table is read or written; `allocated` is whether the table exists then. -/
structure TableAccess where
  table : CfgTable
  idx : ℤ
  allocated : Bool
deriving DecidableEq, Repr

abbrev Configuring (α : Type) := Logged TableAccess α

def touch {β : Type} (table : CfgTable) (t : Option β) (idx : ℤ) : Configuring Unit :=
  Logged.emit ⟨table, idx, t.isSome⟩

/-! ## The configuration -/

/-- The fields of `struct ff_port_cfg` that the modelled functions use.  `lcore_list` has
`DPDK_MAX_LCORE` elements, and so many pointers fit in `vlan_cfgs`, of which `nb_vlan` are set. -/
structure PortCfg where
  name : Option String := none
  port_id : ℕ := 0
  addr : Option String := none
  netmask : Option String := none
  broadcast : Option String := none
  gateway : Option String := none
  nb_lcores : ℕ := 0
  lcore_list : ℕ → ℕ := fun _ => 0
  nb_vlan : ℕ := 0

structure VlanCfg where
  name : Option String := none
  vlan_id : ℤ := 0
  vlan_idx : ℕ := 0
  port_id : ℤ := 0

/-- An entry of `vdev_cfgs` or `bond_cfgs`: its name, and `vdev_id` or `bond_id`. -/
structure DevCfg where
  name : Option String := none
  id : ℤ := 0

/-- The part of `struct ff_config` that the file fills and the modelled functions use. -/
structure Config where
  nb_procs : ℕ := 0
  proc_lcore : Option (ℕ → ℕ) := none
  nb_vdev : ℤ := 0
  nb_bond : ℤ := 0
  nb_vlan_filter : ℕ := 0
  vlan_filter_id : ℕ → ℕ := fun _ => 0
  nb_ports : ℕ := 0
  max_portid : ℕ := 0
  portid_list : ℕ → ℕ := fun _ => 0
  port_cfgs : Option (ℤ → PortCfg) := none
  vlan_cfgs : Option (ℤ → VlanCfg) := none
  vdev_cfgs : Option (ℤ → DevCfg) := none
  bond_cfgs : Option (ℤ → DevCfg) := none
  kni_enable : ℤ := 0
  kni_method : Option String := none
  kni_action : Option String := none

/-- A line of the file as `ini_parse` hands it over, with what the call meets: whether a table and
whether another piece of memory can be allocated, and what an array on the stack holds. -/
structure IniLine where
  sect : String
  name : String
  value : String
  table_alloc : Bool := true
  list_alloc : Bool := true
  stack : ℕ → ℕ := fun _ => 0

/-! ## Lists -/

/-- `parse_port_lcore_list`.
SOURCE: lib/ff_config.c:318-324 -/
def parsePortLcoreList (cur : PortCfg) (value : String) : PortCfg × Bool :=
  let r := parseConfigList cur.lcore_list DPDK_MAX_LCORE value
  ({ cur with nb_lcores := r.sz, lcore_list := r.arr }, r.ok)

/-- `parse_port_list`.
SOURCE: lib/ff_config.c:326-346 -/
def parsePortList (cfg : Config) (l : IniLine) : Config × Bool :=
  let r := parseConfigList l.stack RTE_MAX_ETHPORTS l.value
  if r.ok && l.list_alloc then
    ({ cfg with portid_list := r.arr, nb_ports := r.sz, max_portid := r.arr (r.sz - 1) }, true)
  else (cfg, false)

/-- `parse_port_slave_list`: what it stores is not used here.
SOURCE: lib/ff_config.c:348-370 -/
def parsePortSlaveList (l : IniLine) : Bool :=
  (parseConfigList l.stack RTE_MAX_ETHPORTS l.value).ok && l.list_alloc

/-- `parse_vlan_filter_list`.
SOURCE: lib/ff_config.c:372-378 -/
def parseVlanFilterList (cfg : Config) (l : IniLine) : Config × Bool :=
  let r := parseConfigList cfg.vlan_filter_id DPDK_MAX_VLAN_FILTER l.value
  ({ cfg with vlan_filter_id := r.arr, nb_vlan_filter := r.sz }, r.ok)

/-- `vip_cfg_handler`, `vip6_cfg_handler` and `ipfw_pr_cfg_handler`: they fail if there is an address
and no memory for it.
SOURCE: lib/ff_config.c:380-539 -/
def vipCfgHandler (l : IniLine) : Bool :=
  (rteStrsplit ';' 64 l.value.toList).isEmpty || l.list_alloc

/-! ## Sections -/

/-- The new table of ports: the enabled ones get all lcores.
SOURCE: lib/ff_config.c:550-568 -/
def newPortCfgs (cfg : Config) : ℤ → PortCfg := fun p =>
  if (List.range cfg.nb_ports).any fun i => (cfg.portid_list i : ℤ) == p then
    { port_id := p.toNat
      nb_lcores := cfg.nb_procs
      lcore_list := fun k => if k < cfg.nb_procs then cfg.proc_lcore.getD (fun _ => 0) k else 0 }
  else {}

/-- The allocation of `port_cfgs`.
SOURCE: lib/ff_config.c:550-568 -/
def initPortCfgs (cfg : Config) : Configuring Config :=
  if cfg.port_cfgs.isSome then return cfg
  else do
    Logged.emits ((List.range cfg.nb_ports).flatMap fun i =>
      ⟨.portCfgs, cfg.portid_list i, true⟩ ::
        (List.range cfg.nb_procs).map fun (k : ℕ) => ⟨.procLcore, k, cfg.proc_lcore.isSome⟩)
    return { cfg with port_cfgs := some (newPortCfgs cfg) }

/-- The entry of a port, named after its section.
SOURCE: lib/ff_config.c:584-588 -/
def namedPort (cfg : Config) (l : IniLine) (portid : ℤ) : PortCfg :=
  let cur := cfg.port_cfgs.getD (fun _ => {}) portid
  if cur.name.isNone then { cur with name := some l.sect, port_id := toU16 portid } else cur

def setPort (cfg : Config) (portid : ℤ) (cur : PortCfg) : Config :=
  { cfg with port_cfgs := cfg.port_cfgs.map fun t => fun p => if p = portid then cur else t p }

/-- The names of a port section.  The fields that the other names set are not used here.
SOURCE: lib/ff_config.c:590-644 -/
def portCfgName (cur : PortCfg) (l : IniLine) : PortCfg × Bool :=
  if l.name = "addr" then ({ cur with addr := some l.value }, true)
  else if l.name = "netmask" then ({ cur with netmask := some l.value }, true)
  else if l.name = "broadcast" then ({ cur with broadcast := some l.value }, true)
  else if l.name = "gateway" then ({ cur with gateway := some l.value }, true)
  else if l.name = "lcore_list" then parsePortLcoreList cur l.value
  else if l.name = "slave_port_list" then (cur, parsePortSlaveList l)
  else if l.name = "vip_addr" ∨ l.name = "ipfw_pr" ∨ l.name = "vip_addr6" then
    (cur, vipCfgHandler l)
  else (cur, true)

/-- `port_cfg_handler`.
SOURCE: lib/ff_config.c:541-647 -/
def portCfgHandler (cfg : Config) (l : IniLine) : Configuring (Config × Bool) :=
  if cfg.nb_ports = 0 then return (cfg, false)
  else if cfg.port_cfgs.isNone && !l.table_alloc then return (cfg, false)
  else do
    let cfg ← initPortCfgs cfg
    match sscanfInt l.sect with
    | none => return (cfg, false)
    | some portid =>
      if (cfg.max_portid : ℤ) < portid then return (cfg, true)
      else
        touch .portCfgs cfg.port_cfgs portid
        let (cur, ok) := portCfgName (namedPort cfg l portid) l
        return (setPort cfg portid cur, ok)

/-- The index of a VLAN id in `vlan_filter_id`, or `nb_vlan_filter`.
SOURCE: lib/ff_config.c:676-680 -/
def vlanIndex (cfg : Config) (vlanid : ℤ) : ℕ :=
  ((List.range cfg.nb_vlan_filter).find? fun i => (cfg.vlan_filter_id i : ℤ) == vlanid).getD
    cfg.nb_vlan_filter

def setVlan (cfg : Config) (idx : ℕ) (f : VlanCfg → VlanCfg) : Config :=
  { cfg with vlan_cfgs := cfg.vlan_cfgs.map fun t => fun i => if i = idx then f (t i) else t i }

/-- The line `portid` of a VLAN section: the VLAN is added to a port.
SOURCE: lib/ff_config.c:697-706 -/
def vlanPortid (cfg : Config) (idx : ℕ) (l : IniLine) : Configuring (Config × Bool) :=
  let portid := atoi l.value
  if (cfg.max_portid : ℤ) < portid then return (cfg, true)
  else do
    touch .portCfgs cfg.port_cfgs portid
    let pc := cfg.port_cfgs.getD (fun _ => {}) portid
    Logged.emit ⟨.portVlanCfgs, pc.nb_vlan, true⟩
    let cfg := setVlan cfg idx fun v => { v with port_id := portid }
    return (setPort cfg portid { pc with nb_vlan := pc.nb_vlan + 1 }, true)

/-- `vlan_cfg_handler`.
SOURCE: lib/ff_config.c:649-757 -/
def vlanCfgHandler (cfg : Config) (l : IniLine) : Configuring (Config × Bool) :=
  if cfg.nb_vlan_filter = 0 then return (cfg, false)
  else if cfg.vlan_cfgs.isNone && !l.table_alloc then return (cfg, false)
  else
    let cfg := if cfg.vlan_cfgs.isSome then cfg else { cfg with vlan_cfgs := some fun _ => {} }
    match sscanfInt l.sect with
    | none => return (cfg, false)
    | some vlanid =>
      let idx := vlanIndex cfg vlanid
      if cfg.nb_vlan_filter ≤ idx then return (cfg, true)
      else do
        touch .vlanCfgs cfg.vlan_cfgs idx
        let cfg := setVlan cfg idx fun v =>
          if v.name.isNone then
            { v with name := some l.sect, vlan_id := vlanid, vlan_idx := idx }
          else v
        if l.name = "portid" then vlanPortid cfg idx l
        else if l.name = "vip_addr" ∨ l.name = "ipfw_pr" ∨ l.name = "vip_addr6" then
          return (cfg, vipCfgHandler l)
        else return (cfg, true)

/-- The common body of `vdev_cfg_handler` and `bond_cfg_handler`, for a table `t` and the number `nb` of
its devices: the table is allocated, and the entry of the section is named.  The fields that the names
set are not used here. -/
def devCfgHandler (table : CfgTable) (nb : ℤ) (t : Option (ℤ → DevCfg)) (l : IniLine) :
    Configuring (Option (ℤ → DevCfg) × Bool) :=
  if nb = 0 then return (t, false)
  else if t.isNone && !l.table_alloc then return (t, false)
  else
    let cfgs := t.getD fun _ => {}
    match sscanfInt l.sect with
    | none => return (some cfgs, false)
    | some id =>
      if nb < id then return (some cfgs, true)
      else do
        touch table (some cfgs) id
        return (some fun i =>
          if i = id ∧ (cfgs i).name.isNone then ⟨some l.sect, id⟩ else cfgs i, true)

/-- `vdev_cfg_handler`.
SOURCE: lib/ff_config.c:759-811 -/
def vdevCfgHandler (cfg : Config) (l : IniLine) : Configuring (Config × Bool) := do
  let (t, ok) ← devCfgHandler .vdevCfgs cfg.nb_vdev cfg.vdev_cfgs l
  return ({ cfg with vdev_cfgs := t }, ok)

/-- `bond_cfg_handler`.
SOURCE: lib/ff_config.c:813-878 -/
def bondCfgHandler (cfg : Config) (l : IniLine) : Configuring (Config × Bool) := do
  let (t, ok) ← devCfgHandler .bondCfgs cfg.nb_bond cfg.bond_cfgs l
  return ({ cfg with bond_cfgs := t }, ok)

/-- The line `lcore_mask`.
SOURCE: lib/ff_config.c:71-141, 994-996 -/
def lcoreMaskLine (proc_id : ℤ) (cfg : Config) (l : IniLine) : Config × Bool :=
  if l.list_alloc then
    let (cores, ok) := parseLcoreMask proc_id l.value
    ({ cfg with
        proc_lcore := some fun k => cores.getD k 0
        nb_procs := if ok then cores.length else cfg.nb_procs }, ok)
  else ({ cfg with proc_lcore := none }, false)

def IniLine.within (l : IniLine) (word : String) : Bool := l.sect.toList.take 4 = word.toList

/-- `ini_parse_handler`; `proc_id` is the process's own, from the command line.  Lines that set fields
which are not used here are accepted, or refused where their handler needs memory and gets none.
SOURCE: lib/ff_config.c:971-1086 -/
def iniParseHandler (proc_id : ℤ) (cfg : Config) (l : IniLine) : Configuring (Config × Bool) :=
  if l.sect = "dpdk" then
    if l.name = "lcore_mask" then return lcoreMaskLine proc_id cfg l
    else if l.name = "port_list" then return parsePortList cfg l
    else if l.name = "nb_vdev" then return ({ cfg with nb_vdev := atoi l.value }, true)
    else if l.name = "nb_bond" then return ({ cfg with nb_bond := atoi l.value }, true)
    else if l.name = "vlan_filter" then return parseVlanFilterList cfg l
    else return (cfg, true)
  else if l.sect = "kni" then
    if l.name = "enable" then return ({ cfg with kni_enable := atoi l.value }, true)
    else if l.name = "kni_action" then return ({ cfg with kni_action := some l.value }, true)
    else if l.name = "method" then return ({ cfg with kni_method := some l.value }, true)
    else return (cfg, true)
  else if l.sect = "freebsd.boot" then
    if l.name = "hz" ∨ l.name = "physmem" ∨ l.name = "fd_reserve" ∨ l.name = "memsz_MB" then
      return (cfg, true)
    else return (cfg, l.list_alloc)
  else if l.sect = "freebsd.sysctl" then return (cfg, l.list_alloc)
  else if l.within "port" then portCfgHandler cfg l
  else if l.within "vlan" then vlanCfgHandler cfg l
  else if l.within "vdev" then vdevCfgHandler cfg l
  else if l.within "bond" then bondCfgHandler cfg l
  else if l.sect = "rss_check" then
    return (cfg, (cfg.port_cfgs.isSome || cfg.vlan_cfgs.isSome) && l.table_alloc)
  else return (cfg, true)

/-! ## The whole file -/

/-- `uint16_binary_search` in `proc_lcore`.
SOURCE: lib/ff_config.c:206-226 -/
def uint16BinarySearch (arr : Option (ℕ → ℕ)) (x : ℕ) (l r : ℤ) : Configuring ℤ :=
  if l ≤ r then do
    let mid := l + (r - l) / 2
    touch .procLcore arr mid
    let v := arr.getD (fun _ => 0) mid.toNat
    if v = x then return mid
    else if x < v then uint16BinarySearch arr x l (mid - 1)
    else uint16BinarySearch arr x (mid + 1) r
  else return -1
termination_by (r + 1 - l).toNat
decreasing_by all_goals omega

/-- What a process is started with: `--proc-id`, after `ff_parse_args`, and `--proc-type`. -/
structure ProcArgs where
  proc_id : ℤ
  proc_type : String

/-- `ff_parse_args`: a process id that is no lcore number becomes 0.
SOURCE: lib/ff_config.c:1230-1276 -/
def ffParseArgs (proc_id : ℤ) (proc_type : String) : ProcArgs :=
  ⟨if RTE_MAX_LCORE < toU16 proc_id then 0 else proc_id, proc_type⟩

/-- The lcores of a port are looked up one by one, up to the first that is not enabled.
SOURCE: lib/ff_config.c:1330-1339 -/
def checkLcores (cfg : Config) : List ℕ → Configuring Bool
  | [] => return true
  | lcore_id :: rest => do
    let idx ← uint16BinarySearch cfg.proc_lcore lcore_id 0 (cfg.nb_procs - 1)
    if idx < 0 then return false else checkLcores cfg rest

/-- The lcores that a port's entry lists. -/
def PortCfg.lcores (pc : PortCfg) : List ℕ := (List.range pc.nb_lcores).map pc.lcore_list

/-- The lcore of the primary process is in the list of a port, where KNI needs it.
SOURCE: lib/ff_config.c:1340-1359 -/
def checkKniLcore (args : ProcArgs) (cfg : Config) (pc : PortCfg) : Configuring Bool :=
  if cfg.kni_enable ≠ 0 ∧ args.proc_type = "primary" then do
    touch .procLcore cfg.proc_lcore args.proc_id
    let lcore_id := cfg.proc_lcore.getD (fun _ => 0) args.proc_id.toNat
    return pc.lcores.contains lcore_id
  else return true

/-- The loop of `ff_check_config` over the enabled ports.
SOURCE: lib/ff_config.c:1321-1360 -/
def checkPorts (args : ProcArgs) (cfg : Config) : List ℕ → Configuring Bool
  | [] => return true
  | portid :: rest => do
    touch .portCfgs cfg.port_cfgs portid
    let pc := cfg.port_cfgs.getD (fun _ => {}) portid
    if pc.addr.isNone || pc.netmask.isNone || pc.broadcast.isNone || pc.gateway.isNone then
      return false
    else if !(← checkLcores cfg pc.lcores) then return false
    else if !(← checkKniLcore args cfg pc) then return false
    else checkPorts args cfg rest

/-- `strcasecmp(s, t) == 0`. -/
def strcaseeq (s t : String) : Bool := s.toList.map Char.toLower = t.toList.map Char.toLower

def Config.ports (cfg : Config) : List ℕ := (List.range cfg.nb_ports).map cfg.portid_list

/-- `ff_check_config`: whether it returns 0.
SOURCE: lib/ff_config.c:1278-1363 -/
def ffCheckConfig (args : ProcArgs) (cfg : Config) : Configuring Bool :=
  if cfg.kni_enable ≠ 0 ∧ cfg.kni_method = none then return false
  else if cfg.kni_method.any fun m => !strcaseeq m "accept" && !strcaseeq m "reject" then
    return false
  else if cfg.kni_action.any fun a =>
      !strcaseeq a "alltokni" && !strcaseeq a "alltoff" && !strcaseeq a "default" then
    return false
  else checkPorts args cfg cfg.ports

/-- `ini_parse` with `INI_STOP_ON_FIRST_ERROR`: the lines up to the first that is refused.
SOURCE: lib/ff_ini_parser.c:70-180, lib/ff_ini_parser.h:80-81 -/
def iniParse (proc_id : ℤ) : Config → List IniLine → Configuring (Config × Bool)
  | cfg, [] => return (cfg, true)
  | cfg, l :: rest => do
    let (cfg, ok) ← iniParseHandler proc_id cfg l
    if ok then iniParse proc_id cfg rest else return (cfg, false)

/-- `ff_load_config`: the configuration, if it is accepted.
SOURCE: lib/ff_config.c:1395-1447 -/
def ffLoadConfig (args : ProcArgs) (lines : List IniLine) : Configuring (Option Config) := do
  let (cfg, ok) ← iniParse args.proc_id {} lines
  if ok then
    let ok ← ffCheckConfig args cfg
    return if ok then some cfg else none
  else return none

/-!
## The queues of a process

`init_lcore_conf` (`lib/ff_dpdk_if.c`) goes through the enabled ports and takes, for each port whose
`lcore_list` names the lcore of the process, the queue with the same index.  What it stores in
`rx_queue_list` and `tx_port_id` of `struct lcore_conf` is logged with the index it is stored at.

A list of lcores has at most 129 elements and there are at most 33 ports, so the 16 bits of a queue
number and of the counters are enough, and the model does not wrap them.
-/

open FStack.Prelude

/-- `struct lcore_rx_queue`. -/
structure RxQueue where
  port_id : ℕ
  queue_id : ℕ
deriving DecidableEq, Repr

/-- The fields of `struct lcore_conf` that `init_lcore_conf` fills per port. -/
structure LcoreConf where
  nb_rx_queue : ℕ := 0
  rx_queue_list : ℕ → RxQueue := fun _ => ⟨0, 0⟩
  nb_tx_port : ℕ := 0
  tx_port_id : ℕ → ℕ := fun _ => 0
  tx_queue_id : ℕ → ℕ := fun _ => 0
  nb_queue_list : ℕ → ℕ := fun _ => 0

/-- An element of one of the two lists is written. -/
inductive LcoreWrite where
  | rxQueueList (idx : ℕ)
  | txPortId (idx : ℕ)
deriving DecidableEq, Repr

/-- What `init_lcore_conf` finds out about the machine: the number of Ethernet devices, and the lcores
that the EAL of the process with a given id runs on. -/
structure Machine where
  nb_dev_ports : ℕ
  rte_lcore_is_enabled : ℕ → ℕ → Bool

/-- The loop over `lcore_list`: the last index that has the lcore, or -1.
SOURCE: lib/ff_dpdk_if.c:350-356 -/
def queueId (pconf : PortCfg) (lcore_id : ℕ) : ℤ :=
  (List.range pconf.nb_lcores).foldl
    (fun queueid i => if pconf.lcore_list i = lcore_id then (i : ℤ) else queueid) (-1)

/-- The body of the loop over the ports.
SOURCE: lib/ff_dpdk_if.c:346-375 -/
def lcorePort (cfg : Config) (lcore_id : ℕ) (conf : LcoreConf) (port_id : ℕ) :
    Logged LcoreWrite LcoreConf :=
  let pconf := cfg.port_cfgs.getD (fun _ => {}) port_id
  let queueid := queueId pconf lcore_id
  if queueid < 0 then return conf
  else do
    Logged.emit (.rxQueueList conf.nb_rx_queue)
    Logged.emit (.txPortId conf.nb_tx_port)
    return {
      nb_rx_queue := conf.nb_rx_queue + 1
      rx_queue_list := fun i =>
        if i = conf.nb_rx_queue then ⟨port_id, queueid.toNat⟩ else conf.rx_queue_list i
      nb_tx_port := conf.nb_tx_port + 1
      tx_port_id := fun i => if i = conf.nb_tx_port then port_id else conf.tx_port_id i
      tx_queue_id := fun p => if p = port_id then queueid.toNat else conf.tx_queue_id p
      nb_queue_list := fun p => if p = port_id then pconf.nb_lcores else conf.nb_queue_list p }

/-- The loop over the ports.
SOURCE: lib/ff_dpdk_if.c:345-376 -/
def lcorePorts (cfg : Config) (lcore_id : ℕ) : LcoreConf → List ℕ → Logged LcoreWrite LcoreConf
  | conf, [] => return conf
  | conf, port_id :: rest => do
    let conf ← lcorePort cfg lcore_id conf port_id
    lcorePorts cfg lcore_id conf rest

/-- `init_lcore_conf` of the process `proc_id`; nothing is returned where it exits.
SOURCE: lib/ff_dpdk_if.c:314-382 -/
def initLcoreConf (m : Machine) (cfg : Config) (proc_id : ℕ) :
    Logged LcoreWrite (Option LcoreConf) :=
  if m.nb_dev_ports = 0 then return none
  else if m.nb_dev_ports ≤ cfg.max_portid then return none
  else
    let lcore_id := cfg.proc_lcore.getD (fun _ => 0) proc_id
    if !m.rte_lcore_is_enabled proc_id lcore_id then return none
    else do
      let conf ← lcorePorts cfg lcore_id {} cfg.ports
      return if conf.nb_rx_queue = 0 then none else some conf

end FStack.Model
