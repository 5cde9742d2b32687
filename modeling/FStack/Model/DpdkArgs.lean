import FStack.Model.Config

/-!
# The arguments for DPDK

`dpdk_args_setup` (`lib/ff_config.c`) turns the configuration into the arguments that
`rte_eal_init` is called with.  An argument is formatted in the local buffer `temp`, an option is
formatted in `temp2` and appended to it, and a copy of the result goes to the next element of
`dpdk_argv`.  The computation logs every write into the array and into the two buffers.

Texts are lists of bytes, written as characters.
-/

set_option autoImplicit false

namespace FStack.Model

open FStack.Prelude

def DPDK_CONFIG_NUM : ℕ := 16

def DPDK_CONFIG_MAXLEN : ℕ := 256

abbrev Text := List Char

/-- The fields of `struct ff_vdev_cfg` that are used here. -/
structure VdevCfg where
  path : Option Text := none
  mac : Option Text := none
  vdev_id : UInt8 := 0
  nb_queues : UInt8 := 0
  nb_cq : UInt8 := 0
  queue_size : UInt16 := 0

/-- `struct ff_bond_cfg`. -/
structure BondCfg where
  slave : Option Text := none
  primary : Option Text := none
  bond_mac : Option Text := none
  xmit_policy : Option Text := none
  bond_id : UInt8 := 0
  mode : UInt8 := 0
  socket_id : UInt8 := 0
  lsc_poll_period_ms : UInt8 := 0
  up_delay : UInt16 := 0
  down_delay : UInt16 := 0

/-- A configuration with the fields that the arguments are made of; `vdevs` and `bonds` are the
entries of `vdev_cfgs` and `bond_cfgs`. -/
structure DpdkConfig extends Config where
  no_huge : Int32 := 0
  proc_mask : Option Text := none
  nb_channel : Int32 := 0
  memory : Int32 := 0
  log_level : UInt16 := 0
  proc_type : Option Text := none
  base_virtaddr : Option Text := none
  file_prefix : Option Text := none
  allow : Option Text := none
  vdevs : ℕ → VdevCfg := fun _ => {}
  bonds : ℕ → BondCfg := fun _ => {}

/-! ## Texts -/

/-- `%u`. -/
def fmtU (n : ℕ) : Text := Nat.toDigits 10 n

/-- `%d`. -/
def fmtD (x : ℤ) : Text := if x < 0 then '-' :: fmtU x.natAbs else fmtU x.natAbs

/-- `%s`; the C library has a text for the null pointer. -/
def fmtS (s : Option Text) : Text := s.getD "(null)".toList

/-- The tokens that `strtok_r` finds in a text, one after the other. -/
def strtokAll (delim : Char) (s : Text) : List Text := (s.splitOn delim).filter (· ≠ [])

/-- An argument: the text that is formatted first, and the options that are appended to it. -/
structure DpdkArg where
  base : Text
  options : List Text := []

/-- The argument of an `if`. -/
def argIf (c : Prop) [Decidable c] (a : Text) : List Text := if c then [a] else []

/-- The argument that is made of a field, where the field is set. -/
def argOf (field : Option Text) (f : Text → Text) : List Text := (field.map f).toList

/-- SOURCE: lib/ff_config.c:1098-1125 -/
def fixedArgs (cfg : DpdkConfig) : List Text :=
  argOf cfg.proc_mask ("-c".toList ++ ·) ++
  argIf (cfg.nb_channel ≠ 0) ("-n".toList ++ fmtD cfg.nb_channel.toInt) ++
  argIf (cfg.memory ≠ 0) ("-m".toList ++ fmtD cfg.memory.toInt) ++
  argIf (cfg.log_level ≠ 0) ("--log-level=".toList ++ fmtU cfg.log_level.toNat) ++
  argOf cfg.proc_type ("--proc-type=".toList ++ ·) ++
  argOf cfg.base_virtaddr ("--base-virtaddr=".toList ++ ·) ++
  argOf cfg.file_prefix ("--file-prefix=container-".toList ++ ·)

/-- SOURCE: lib/ff_config.c:1126-1134 -/
def allowArgs (cfg : DpdkConfig) : List Text :=
  (cfg.allow.map (strtokAll ',')).getD [] |>.map ("--allow=".toList ++ ·)

/-- SOURCE: lib/ff_config.c:1138-1161 -/
def vdevArg (v : VdevCfg) : DpdkArg where
  base := "--vdev=virtio_user".toList ++ fmtU v.vdev_id.toNat ++ ",path=".toList ++ fmtS v.path
  options :=
    argIf (v.nb_queues ≠ 0) (",queues=".toList ++ fmtU v.nb_queues.toNat) ++
    argIf (v.nb_cq ≠ 0) (",cq=".toList ++ fmtU v.nb_cq.toNat) ++
    argIf (v.queue_size ≠ 0) (",queue_size=".toList ++ fmtU v.queue_size.toNat) ++
    argOf v.mac (",mac=".toList ++ ·)

/-- SOURCE: lib/ff_config.c:1136-1169 -/
def vdevArgs (cfg : DpdkConfig) : List DpdkArg :=
  if cfg.nb_vdev = 0 then []
  else
    ((List.range cfg.nb_vdev.toNat).map fun i => vdevArg (cfg.vdevs i)) ++
    [⟨"--no-pci".toList, []⟩] ++
    if cfg.file_prefix.isNone then [⟨"--file-prefix=container".toList, []⟩] else []

/-- SOURCE: lib/ff_config.c:1175-1221 -/
def bondArg (b : BondCfg) : DpdkArg where
  base := "net_bonding".toList ++ fmtU b.bond_id.toNat ++ ",mode=".toList ++ fmtU b.mode.toNat ++
    ",slave=".toList ++ fmtS b.slave
  options :=
    argOf b.primary (",primary=".toList ++ ·) ++
    argIf (b.socket_id ≠ 0) (",socket_id=".toList ++ fmtU b.socket_id.toNat) ++
    argOf b.bond_mac (",mac=".toList ++ ·) ++
    argOf b.xmit_policy (",xmit_policy=".toList ++ ·) ++
    argIf (b.lsc_poll_period_ms ≠ 0)
      (",lsc_poll_period_ms=".toList ++ fmtU b.lsc_poll_period_ms.toNat) ++
    argIf (b.up_delay ≠ 0) (",up_delay=".toList ++ fmtU b.up_delay.toNat) ++
    argIf (b.down_delay ≠ 0) (",down_delay=".toList ++ fmtU b.down_delay.toNat)

/-- SOURCE: lib/ff_config.c:1171-1223 -/
def bondArgs (cfg : DpdkConfig) : List DpdkArg :=
  (List.range cfg.nb_bond.toNat).flatMap fun i =>
    [⟨"--vdev".toList, []⟩, bondArg (cfg.bonds i)]

/-- The arguments that are formatted, in the order of the code. -/
def dpdkArgs (cfg : DpdkConfig) : List DpdkArg :=
  (fixedArgs cfg ++ allowArgs cfg).map (⟨·, []⟩) ++ vdevArgs cfg ++ bondArgs cfg

/-! ## Writing -/

/-- A write: of the element `n` of `dpdk_argv`, or of the first `size` bytes of a buffer. -/
inductive ArgsWrite where
  | argv (n : ℕ)
  | buffer (size : ℕ)
deriving DecidableEq, Repr

abbrev WritingArgs (α : Type) := Logged ArgsWrite α

/-- `dpdk_argv[n++] = strdup(s)`; `argv` are the elements so far. -/
def pushArg (argv : List Text) (s : Text) : WritingArgs (List Text) := do
  Logged.emit (.argv argv.length)
  return argv ++ [s]

/-- `sprintf` into a buffer, with the null byte. -/
def sprintf (s : Text) : WritingArgs Text := do
  Logged.emit (.buffer (s.length + 1))
  return s

/-- `strcat(temp, temp2)`. -/
def strcat (temp temp2 : Text) : WritingArgs Text := do
  Logged.emit (.buffer (temp.length + temp2.length + 1))
  return temp ++ temp2

/-- Every option is formatted in `temp2` and appended. -/
def appendOptions : Text → List Text → WritingArgs Text
  | temp, [] => return temp
  | temp, option :: options => do
    let temp2 ← sprintf option
    let temp ← strcat temp temp2
    appendOptions temp options

def putArgs : List Text → List DpdkArg → WritingArgs (List Text)
  | argv, [] => return argv
  | argv, a :: args => do
    let temp ← sprintf a.base
    let temp ← appendOptions temp a.options
    let argv ← pushArg argv temp
    putArgs argv args

/-- `dpdk_args_setup`; the result is `dpdk_argv`, and its length is returned.
SOURCE: lib/ff_config.c:1088-1232 -/
def dpdkArgsSetup (cfg : DpdkConfig) : WritingArgs (List Text) := do
  let argv ← pushArg [] "f-stack".toList
  let argv ← (if cfg.no_huge ≠ 0 then pushArg argv "--no-huge".toList else pure argv)
  putArgs argv (dpdkArgs cfg)

end FStack.Model
