import FStack.Model.DpdkArgs
import Mathlib.Algebra.BigOperators.Group.List.Basic
import Mathlib.Data.Nat.Digits.Defs

/-!
# The room for the arguments of DPDK

`dpdk_argv` has `DPDK_CONFIG_NUM + 1` elements, and the local buffers have `DPDK_CONFIG_MAXLEN`
bytes.  `dpdk_args_setup` compares neither with what the configuration asks for: every device in the
list of allowed ones takes an element, every virtual device one, every bond two.  The counts and the
lengths for which all writes stay inside are those of `ArgsFit` (`argsRight_iff`).
-/

set_option autoImplicit false

namespace FStack.Analysis

open FStack.Prelude FStack.Model

/-- A write that stays inside of the array or the buffer. -/
def ArgsWrite.Inside : ArgsWrite → Prop
  | .argv n => n < DPDK_CONFIG_NUM + 1
  | .buffer size => size ≤ DPDK_CONFIG_MAXLEN

/-- `dpdk_args_setup` writes only inside of `dpdk_argv` and of its buffers. -/
def ArgsRight (cfg : DpdkConfig) : Prop := Logged.Every ArgsWrite.Inside (dpdkArgsSetup cfg)

/-! ## The room that a configuration needs -/

/-- The length of an option that is made of a field. -/
def optionLen (field : Option Text) (name : ℕ) : ℕ := (field.map fun s => name + s.length).getD 0

/-- The length of an option for a number other than 0. -/
def numberLen (n name : ℕ) : ℕ := if n = 0 then 0 else name + (fmtU n).length

def vdevLen (v : VdevCfg) : ℕ :=
  24 + (fmtU v.vdev_id.toNat).length + (fmtS v.path).length + numberLen v.nb_queues.toNat 8 +
    numberLen v.nb_cq.toNat 4 + numberLen v.queue_size.toNat 12 + optionLen v.mac 5

def bondLen (b : BondCfg) : ℕ :=
  24 + (fmtU b.bond_id.toNat).length + (fmtU b.mode.toNat).length + (fmtS b.slave).length +
    optionLen b.primary 9 + numberLen b.socket_id.toNat 11 + optionLen b.bond_mac 5 +
    optionLen b.xmit_policy 13 + numberLen b.lsc_poll_period_ms.toNat 20 +
    numberLen b.up_delay.toNat 10 + numberLen b.down_delay.toNat 12

/-- The number of elements for virtual devices. -/
def vdevCount (cfg : DpdkConfig) : ℕ :=
  if cfg.nb_vdev = 0 then 0
  else cfg.nb_vdev.toNat + 1 + (if cfg.file_prefix.isNone then 1 else 0)

def allowTokens (cfg : DpdkConfig) : List Text := (cfg.allow.map (strtokAll ',')).getD []

/-- The number of fields among the first ones that get an argument. -/
def fixedCount (cfg : DpdkConfig) : ℕ :=
  (if cfg.no_huge ≠ 0 then 1 else 0) + cfg.proc_mask.toList.length +
    (if cfg.nb_channel ≠ 0 then 1 else 0) + (if cfg.memory ≠ 0 then 1 else 0) +
    (if cfg.log_level ≠ 0 then 1 else 0) + cfg.proc_type.toList.length +
    cfg.base_virtaddr.toList.length + cfg.file_prefix.toList.length

/-- The configurations that `dpdk_args_setup` has room for. -/
structure ArgsFit (cfg : DpdkConfig) : Prop where
  count : 1 + fixedCount cfg + (allowTokens cfg).length + vdevCount cfg + 2 * cfg.nb_bond.toNat ≤ 17
  proc_mask : ∀ s ∈ cfg.proc_mask, s.length ≤ 253
  proc_type : ∀ s ∈ cfg.proc_type, s.length ≤ 243
  base_virtaddr : ∀ s ∈ cfg.base_virtaddr, s.length ≤ 239
  file_prefix : ∀ s ∈ cfg.file_prefix, s.length ≤ 231
  allow : ∀ s ∈ allowTokens cfg, s.length ≤ 247
  vdev : ∀ i < cfg.nb_vdev.toNat, vdevLen (cfg.vdevs i) ≤ 255
  bond : ∀ i < cfg.nb_bond.toNat, bondLen (cfg.bonds i) ≤ 255

/-! ## Writing -/

/-- The text of an argument with all of its options. -/
def DpdkArg.text (a : DpdkArg) : Text := a.base ++ a.options.flatten

theorem inside_buffer {s : Text} : ArgsWrite.Inside (.buffer (s.length + 1)) ↔ s.length ≤ 255 := by
  simp only [ArgsWrite.Inside, DPDK_CONFIG_MAXLEN]
  omega

/-- INTERNAL: the buffers are large enough for a text and its options if they are for all of it. -/
theorem appendOptions_inside {temp : Text} (htemp : temp.length ≤ 255) (options : List Text) :
    Logged.Every ArgsWrite.Inside (appendOptions temp options) ↔
      (temp ++ options.flatten).length ≤ 255 := by
  induction options generalizing temp with
  | nil => simpa [appendOptions] using htemp
  | cons option options ih =>
    simp only [appendOptions, sprintf, strcat, Logged.every_bind, Logged.every_emit,
      Logged.every_pure, and_true, Logged.val_bind, Logged.val_pure, List.flatten_cons,
      ArgsWrite.Inside, DPDK_CONFIG_MAXLEN]
    constructor
    · rintro ⟨-, hcat, hrest⟩
      rw [← List.append_assoc]
      exact (ih (by rw [List.length_append]; omega)).mp hrest
    · intro hall
      have hlen : temp.length + option.length ≤ 255 := by
        simp only [List.length_append] at hall
        omega
      refine ⟨by omega, by omega, (ih (by rw [List.length_append]; omega)).mpr ?_⟩
      rw [List.append_assoc]
      exact hall

theorem appendOptions_val (temp : Text) (options : List Text) :
    (appendOptions temp options).val = temp ++ options.flatten := by
  induction options generalizing temp with
  | nil => simp [appendOptions]
  | cons option options ih =>
    simp only [appendOptions, sprintf, strcat, Logged.val_bind, Logged.val_pure, ih,
      List.flatten_cons, List.append_assoc]

theorem pushArg_inside (argv : List Text) (s : Text) :
    Logged.Every ArgsWrite.Inside (pushArg argv s) ↔ argv.length < 17 := by
  simp only [pushArg, Logged.every_bind, Logged.every_emit, Logged.every_pure, and_true,
    ArgsWrite.Inside, DPDK_CONFIG_NUM]

theorem pushArg_length (argv : List Text) (s : Text) :
    (pushArg argv s).val.length = argv.length + 1 := by
  simp [pushArg]

/-- INTERNAL: all writes for a list of arguments, when `argv` are the elements so far. -/
theorem putArgs_inside {argv : List Text} (hargv : argv.length ≤ 17) (args : List DpdkArg) :
    Logged.Every ArgsWrite.Inside (putArgs argv args) ↔
      argv.length + args.length ≤ 17 ∧ ∀ a ∈ args, (DpdkArg.text a).length ≤ 255 := by
  induction args generalizing argv with
  | nil => simpa [putArgs] using hargv
  | cons a args ih =>
    have hval : (sprintf a.base).val = a.base := rfl
    have hbase : Logged.Every ArgsWrite.Inside (sprintf a.base) ↔ a.base.length ≤ 255 := by
      simp only [sprintf, Logged.every_bind, Logged.every_emit, Logged.every_pure, and_true,
        inside_buffer]
    have hnext := pushArg_length argv (DpdkArg.text a)
    simp only [putArgs, Logged.every_bind, hval, hbase, appendOptions_val]
    rw [← DpdkArg.text, pushArg_inside, List.forall_mem_cons, List.length_cons]
    constructor
    · rintro ⟨hlen, htext, hroom, hrest⟩
      obtain ⟨hcount, hall⟩ := (ih (by omega)).mp hrest
      exact ⟨by omega, (appendOptions_inside hlen _).mp htext, hall⟩
    · rintro ⟨hcount, htext, hall⟩
      have hlen : a.base.length ≤ 255 := by
        rw [DpdkArg.text, List.length_append] at htext
        omega
      exact ⟨hlen, (appendOptions_inside hlen _).mpr htext, by omega,
        (ih (by omega)).mpr ⟨by omega, hall⟩⟩

/-- INTERNAL: the writes of `dpdk_args_setup`. -/
theorem argsRight_iff_args (cfg : DpdkConfig) :
    ArgsRight cfg ↔ 1 + (if cfg.no_huge ≠ 0 then 1 else 0) + (dpdkArgs cfg).length ≤ 17 ∧
      ∀ a ∈ dpdkArgs cfg, (DpdkArg.text a).length ≤ 255 := by
  have hfirst := pushArg_length [] "f-stack".toList
  have hsecond := pushArg_length (pushArg [] "f-stack".toList).val "--no-huge".toList
  rw [List.length_nil] at hfirst
  rw [ArgsRight, dpdkArgsSetup, Logged.every_bind, Logged.every_bind, pushArg_inside]
  by_cases hhuge : cfg.no_huge ≠ 0
  · rw [if_pos hhuge, if_pos hhuge, pushArg_inside, putArgs_inside (by omega), hsecond, hfirst]
    simp
  · rw [if_neg hhuge, if_neg hhuge, Logged.val_pure, putArgs_inside (by omega), hfirst]
    simp

/-! ## The texts -/

theorem fmtU_length {n k : ℕ} (hk : 0 < k) (hn : n < 10 ^ k) : (fmtU n).length ≤ k :=
  Nat.toDigits_length 10 n k hk hn

theorem fmtD_length (x : Int32) : (fmtD x.toInt).length ≤ 11 := by
  have hlow := x.le_toInt
  have hhigh := x.toInt_lt
  have habs : (fmtU x.toInt.natAbs).length ≤ 10 := fmtU_length (by omega) (by omega)
  rw [fmtD]
  split
  · rw [List.length_cons]
    omega
  · omega

theorem length_flatten_argIf {n : ℕ} (name : Text) (c : Prop) [Decidable c] (hc : c ↔ n ≠ 0) :
    (argIf c (name ++ fmtU n)).flatten.length = numberLen n name.length := by
  rw [argIf, numberLen]
  by_cases hn : n = 0
  · rw [if_neg (by simp [hc, hn]), if_pos hn]
    rfl
  · rw [if_pos (hc.mpr hn), if_neg hn]
    simp

theorem length_flatten_argOf (field : Option Text) (name : Text) :
    (argOf field (name ++ ·)).flatten.length = optionLen field name.length := by
  cases field <;> simp [argOf, optionLen]

theorem uint8_ne_zero (x : UInt8) : x ≠ 0 ↔ x.toNat ≠ 0 := not_congr UInt8.toNat_inj.symm

theorem uint16_ne_zero (x : UInt16) : x ≠ 0 ↔ x.toNat ≠ 0 := not_congr UInt16.toNat_inj.symm

theorem vdevArg_length (v : VdevCfg) : (DpdkArg.text (vdevArg v)).length = vdevLen v := by
  unfold DpdkArg.text vdevArg
  dsimp only
  simp only [List.flatten_append, List.length_append, length_flatten_argOf,
    length_flatten_argIf _ _ (uint8_ne_zero v.nb_queues),
    length_flatten_argIf _ _ (uint8_ne_zero v.nb_cq),
    length_flatten_argIf _ _ (uint16_ne_zero v.queue_size)]
  simp only [vdevLen, String.reduceToList, List.length_cons, List.length_nil, zero_add,
    Nat.reduceAdd]
  omega

theorem bondArg_length (b : BondCfg) : (DpdkArg.text (bondArg b)).length = bondLen b := by
  unfold DpdkArg.text bondArg
  dsimp only
  simp only [List.flatten_append, List.length_append, length_flatten_argOf,
    length_flatten_argIf _ _ (uint8_ne_zero b.socket_id),
    length_flatten_argIf _ _ (uint8_ne_zero b.lsc_poll_period_ms),
    length_flatten_argIf _ _ (uint16_ne_zero b.up_delay),
    length_flatten_argIf _ _ (uint16_ne_zero b.down_delay)]
  simp only [bondLen, String.reduceToList, List.length_cons, List.length_nil, zero_add,
    Nat.reduceAdd]
  omega

/-! ## The arguments -/

theorem argIf_length (c : Prop) [Decidable c] (a : Text) :
    (argIf c a).length = if c then 1 else 0 := by
  unfold argIf
  split <;> rfl

theorem argOf_length (field : Option Text) (f : Text → Text) :
    (argOf field f).length = field.toList.length := by
  cases field <;> rfl

/-- INTERNAL: the number of arguments. -/
theorem dpdkArgs_length (cfg : DpdkConfig) :
    (if cfg.no_huge ≠ 0 then 1 else 0) + (dpdkArgs cfg).length =
      fixedCount cfg + (allowTokens cfg).length + vdevCount cfg + 2 * cfg.nb_bond.toNat := by
  have hvdev : (vdevArgs cfg).length = vdevCount cfg := by
    unfold vdevArgs vdevCount
    split
    · rfl
    · split <;> simp
  have hbond : (bondArgs cfg).length = 2 * cfg.nb_bond.toNat := by
    simp [bondArgs, List.length_flatMap]
    omega
  simp only [dpdkArgs, List.length_append, List.length_map, fixedArgs, argIf_length, argOf_length,
    allowArgs, hvdev, hbond, fixedCount]
  rw [← allowTokens]
  omega

/-- INTERNAL: the arguments that have no options. -/
theorem plainArgs_fit (texts : List Text) :
    (∀ a ∈ texts.map (DpdkArg.mk · []), (DpdkArg.text a).length ≤ 255) ↔
      ∀ s ∈ texts, s.length ≤ 255 := by
  simp [DpdkArg.text]

theorem forall_argOf {P : Text → Prop} (field : Option Text) (f : Text → Text) :
    (∀ s ∈ argOf field f, P s) ↔ ∀ s ∈ field, P (f s) := by
  cases field <;> simp [argOf]

theorem forall_argIf {P : Text → Prop} {a : Text} (ha : P a) (c : Prop) [Decidable c] :
    (∀ s ∈ argIf c a, P s) ↔ True := by
  unfold argIf
  split <;> simp [ha]

/-- INTERNAL: the texts of the arguments that are made of single fields. -/
theorem fixedArgs_fit (cfg : DpdkConfig) :
    (∀ s ∈ fixedArgs cfg, s.length ≤ 255) ↔
      (∀ s ∈ cfg.proc_mask, s.length ≤ 253) ∧ (∀ s ∈ cfg.proc_type, s.length ≤ 243) ∧
      (∀ s ∈ cfg.base_virtaddr, s.length ≤ 239) ∧ ∀ s ∈ cfg.file_prefix, s.length ≤ 231 := by
  have hchannel : ("-n".toList ++ fmtD cfg.nb_channel.toInt).length ≤ 255 := by
    have := fmtD_length cfg.nb_channel
    simp
    omega
  have hmemory : ("-m".toList ++ fmtD cfg.memory.toInt).length ≤ 255 := by
    have := fmtD_length cfg.memory
    simp
    omega
  have hlevel : ("--log-level=".toList ++ fmtU cfg.log_level.toNat).length ≤ 255 := by
    have : (fmtU cfg.log_level.toNat).length ≤ 5 :=
      fmtU_length (by omega) (cfg.log_level.toNat_lt.trans (by omega))
    simp
    omega
  have hname : ∀ (name : Text) (n : ℕ) (field : Option Text), name.length + n = 255 →
      ((∀ s ∈ argOf field (name ++ ·), s.length ≤ 255) ↔ ∀ s ∈ field, s.length ≤ n) := by
    intro name n field hn
    rw [forall_argOf]
    refine forall₂_congr fun s _ => ?_
    rw [List.length_append]
    omega
  simp only [fixedArgs, List.forall_mem_append]
  rw [forall_argIf hchannel, forall_argIf hmemory, forall_argIf hlevel,
    hname "-c".toList 253 _ rfl, hname "--proc-type=".toList 243 _ rfl,
    hname "--base-virtaddr=".toList 239 _ rfl,
    hname "--file-prefix=container-".toList 231 _ rfl]
  tauto

theorem allowArgs_fit (cfg : DpdkConfig) :
    (∀ s ∈ allowArgs cfg, s.length ≤ 255) ↔ ∀ s ∈ allowTokens cfg, s.length ≤ 247 := by
  rw [allowArgs, ← allowTokens, List.forall_mem_map]
  refine forall₂_congr fun s _ => ?_
  rw [List.length_append, show "--allow=".toList.length = 8 from rfl]
  omega

theorem vdevArgs_fit (cfg : DpdkConfig) :
    (∀ a ∈ vdevArgs cfg, (DpdkArg.text a).length ≤ 255) ↔
      ∀ i < cfg.nb_vdev.toNat, vdevLen (cfg.vdevs i) ≤ 255 := by
  have hpci : (DpdkArg.text ⟨"--no-pci".toList, []⟩).length ≤ 255 := by decide
  have hprefix : (DpdkArg.text ⟨"--file-prefix=container".toList, []⟩).length ≤ 255 := by decide
  unfold vdevArgs
  split
  · simp [*]
  · rw [List.forall_mem_append, List.forall_mem_append, List.forall_mem_map]
    have hlast : ∀ a ∈ (if cfg.file_prefix.isNone = true then
        [(⟨"--file-prefix=container".toList, []⟩ : DpdkArg)] else []),
        (DpdkArg.text a).length ≤ 255 := by
      split
      · simpa using hprefix
      · simp
    simp only [List.mem_range, vdevArg_length, List.forall_mem_singleton, hpci, and_true]
    exact and_iff_left hlast

theorem bondArgs_fit (cfg : DpdkConfig) :
    (∀ a ∈ bondArgs cfg, (DpdkArg.text a).length ≤ 255) ↔
      ∀ i < cfg.nb_bond.toNat, bondLen (cfg.bonds i) ≤ 255 := by
  have hvdev : (DpdkArg.text ⟨"--vdev".toList, []⟩).length ≤ 255 := by decide
  simp only [bondArgs, List.forall_mem_flatMap, List.mem_range, List.forall_mem_cons,
    bondArg_length, hvdev, true_and]
  simp

/-- `dpdk_args_setup` stays inside of `dpdk_argv` and of its buffers for the configurations of
`ArgsFit` and for no others. -/
theorem argsRight_iff (cfg : DpdkConfig) : ArgsRight cfg ↔ ArgsFit cfg := by
  have htexts := plainArgs_fit (fixedArgs cfg ++ allowArgs cfg)
  rw [List.forall_mem_append, fixedArgs_fit, allowArgs_fit] at htexts
  have hcount := dpdkArgs_length cfg
  rw [argsRight_iff_args, Nat.add_assoc, hcount, dpdkArgs, List.forall_mem_append,
    List.forall_mem_append, htexts, vdevArgs_fit, bondArgs_fit]
  constructor
  · rintro ⟨h, ⟨⟨⟨h₁, h₂, h₃, h₄⟩, h₅⟩, h₆⟩, h₇⟩
    exact ⟨by omega, h₁, h₂, h₃, h₄, h₅, h₆, h₇⟩
  · rintro ⟨h, h₁, h₂, h₃, h₄, h₅, h₆, h₇⟩
    exact ⟨by omega, ⟨⟨⟨h₁, h₂, h₃, h₄⟩, h₅⟩, h₆⟩, h₇⟩

/-- Eight bonds with nothing else need 18 elements. -/
def eightBonds : DpdkConfig where
  nb_bond := 8
  proc_type := some "auto".toList
  bonds := fun _ => { slave := some "0".toList }

/-- The check accepts a configuration that there is no room for. -/
theorem not_argsRight_eightBonds :
    ¬ ∀ (args : ProcArgs) (cfg : DpdkConfig),
      (ffCheckConfig args cfg.toConfig).val = true → ArgsRight cfg := by
  intro h
  have hfit := (argsRight_iff _).mp (h ⟨0, "auto"⟩ eightBonds (by decide))
  exact absurd hfit.count (by decide)

end FStack.Analysis
