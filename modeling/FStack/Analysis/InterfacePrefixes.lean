import FStack.Model.VethAddr6

/-!
# The prefixes of an interface

Each IPv6 address of a port or of a VLAN has to be installed with the prefix that is configured for it: `prefix_len` for
`addr6`, and `vip_prefix_len` for the addresses of `vip_addr6`.

`ff_veth_setvaddr6` makes its mask of the first one.  It is 0 when there is no `addr6`.  The requests are the right ones
if and only if the two lengths are the same whenever there is an address in `vip_addr6` (`prefixes_right_iff`).
-/

set_option autoImplicit false

namespace FStack.Analysis

open FStack.Model

/-- The mask has `n` one bits, and they are the first ones. -/
def LeadingOnes (mask : ℕ → BitVec 8) (n : ℕ) : Prop := ∀ i < 128, (mask (i / 8)).getMsbD (i % 8) = decide (i < n)

/-- A prefix length of 0 stands for 64. -/
def prefixOrDefault (prefix_len : ℕ) : ℕ := if prefix_len = 0 then 64 else prefix_len

section

variable (inet_pton4 : List Char → Option (BitVec 32)) (inet_pton6 : List Char → Option (BitVec 128))

/-- The addresses of `vip_addr6` that are valid, in order. -/
def validVips (cfg : VethCfg) : List (BitVec 128) := cfg.vip6.addrs.filterMap inet_pton6

/-- The requests that are wanted: the addresses, with their prefix lengths. -/
def wantedAddrs (cfg : VethCfg) : List (BitVec 128 × ℕ) :=
  (cfg.addr6_str.map fun addr6_str => ((inet_pton6 addr6_str).getD 0, prefixOrDefault cfg.prefix_len)).toList ++
    (validVips inet_pton6 cfg).map fun addr => (addr, prefixOrDefault cfg.vip_prefix_len)

/-- A request is for an address, and has a mask of this length. -/
def RequestFor (req : AliasReq) (wanted : BitVec 128 × ℕ) : Prop :=
  req.ifra_addr = wanted.1 ∧ LeadingOnes req.ifra_prefixmask wanted.2

/-- No table is written behind its end, and the requests are those that are wanted. -/
def PrefixesRight (cfg : VethCfg) : Option (List AliasReq) → Prop
  | none => False
  | some reqs => List.Forall₂ RequestFor reqs (wantedAddrs inet_pton6 cfg)

/-- The length that `ff_veth_setvaddr6` makes its mask of. -/
def addr6Prefix (cfg : VethCfg) : ℕ := if cfg.addr6_str.isSome then prefixOrDefault cfg.prefix_len else 0

/-- There is no further address, or the prefix length of `addr6` is also that of the further addresses; and no request
but the last one is answered with a negative number. -/
def PrefixesSafe (cfg : VethCfg) (ifioctl : ℕ → ℤ) : Prop :=
  validVips inet_pton6 cfg = [] ∨
    addr6Prefix cfg = prefixOrDefault cfg.vip_prefix_len ∧
      ∀ k, k + 1 < (validVips inet_pton6 cfg).length → 0 ≤ ifioctl k

/-! ## Masks -/

theorem partialByte_bits : ∀ m k : Fin 8,
    (((1 <<< m.val) - 1) <<< (8 - m.val) : BitVec 8).getMsbD k = decide (k < m) := by decide

theorem ones_bits : ∀ k : Fin 8, (0xff : BitVec 8).getMsbD k = true := by decide

/-- The mask that is made of a length has that many leading ones. -/
theorem leadingOnes_prefixmask (n : ℕ) : LeadingOnes (prefixmask n) n := by
  intro i _
  have hbit : i % 8 < 8 := Nat.mod_lt i (by decide)
  rw [prefixmask]
  split
  · rename_i hpart
    have hbyte := partialByte_bits ⟨n % 8, Nat.mod_lt n (by decide)⟩ ⟨i % 8, hbit⟩
    refine hbyte.trans (decide_eq_decide.mpr ?_)
    rw [Fin.mk_lt_mk]
    omega
  · split
    · rename_i hwhole
      rw [ones_bits ⟨i % 8, hbit⟩, eq_comm, decide_eq_true_iff]
      omega
    · rename_i hpart hwhole
      have hzero : (0 : BitVec 8).getMsbD (i % 8) = false := BitVec.getMsbD_zero
      rw [hzero, eq_comm, decide_eq_false_iff_not]
      omega

/-- A mask does not have two lengths. -/
theorem LeadingOnes.unique {mask : ℕ → BitVec 8} {m n : ℕ} (hm : LeadingOnes mask m) (hn : LeadingOnes mask n)
    (hmle : m ≤ 128) (hnle : n ≤ 128) : m = n := by
  rcases Nat.lt_trichotomy m n with hlt | heq | hlt
  · have hbit := (hm m (by omega)).symm.trans (hn m (by omega))
    simp [hlt] at hbit
  · exact heq
  · have hbit := (hm n (by omega)).symm.trans (hn n (by omega))
    simp [hlt] at hbit

theorem leadingOnes_prefixmask_iff {m n : ℕ} (hm : m ≤ 128) (hn : n ≤ 128) : LeadingOnes (prefixmask m) n ↔ m = n :=
  ⟨fun h => (leadingOnes_prefixmask m).unique h hm hn, fun h => h ▸ leadingOnes_prefixmask m⟩

theorem prefixOrDefault_le {n : ℕ} (h : n ≤ 128) : prefixOrDefault n ≤ 128 := by
  rw [prefixOrDefault]
  split <;> omega

theorem addr6Prefix_le (cfg : VethCfg) : addr6Prefix cfg ≤ 128 := by
  rw [addr6Prefix]
  split
  · exact prefixOrDefault_le cfg.prefix_le
  · exact Nat.zero_le 128

/-! ## The tables -/

/-- The valid addresses are stored one after another, and none behind the end of the table. -/
theorem storeVips_valid {w : ℕ} (inet_pton : List Char → Option (BitVec w)) {addrs : List (List Char)} {j : ℕ}
    (table : ℕ → BitVec w) (hroom : j + addrs.length ≤ VIP_MAX_NUM) :
    ∃ stored, storeVips inet_pton addrs j table = some (stored, j + (addrs.filterMap inet_pton).length) ∧
      (∀ i < j, stored i = table i) ∧ ∀ k ip, (addrs.filterMap inet_pton)[k]? = some ip → stored (j + k) = ip := by
  induction addrs generalizing j table with
  | nil => exact ⟨table, rfl, fun _ _ => rfl, fun k ip h => by simp at h⟩
  | cons addr addrs ih =>
    rw [List.length_cons] at hroom
    cases haddr : inet_pton addr with
    | none =>
      rw [List.filterMap_cons_none haddr, storeVips, haddr]
      exact ih table (by omega)
    | some ip =>
      obtain ⟨stored, hstore, hbelow, hvalid⟩ := ih (j := j + 1) (fun i => if i = j then ip else table i) (by omega)
      refine ⟨stored, ?_, fun i hi => ?_, fun k a hk => ?_⟩
      · rw [List.filterMap_cons_some haddr, storeVips, haddr]
        dsimp only
        rw [if_pos (by omega), hstore, List.length_cons]
        congr 2
        omega
      · rw [hbelow i (by omega), if_neg (by omega)]
      · rw [List.filterMap_cons_some haddr] at hk
        cases k with
        | zero =>
          obtain rfl := Option.some.inj hk
          rw [Nat.add_zero, hbelow j (by omega), if_pos rfl]
        | succ k =>
          have hnext := hvalid k a hk
          rwa [Nat.add_assoc, Nat.add_comm 1 k] at hnext

theorem length_validVips_le (cfg : VethCfg) : (validVips inet_pton6 cfg).length ≤ VIP_MAX_NUM :=
  Nat.le_trans (List.length_filterMap_le inet_pton6 _) cfg.vip6.le

theorem readVip_stored (sc : VethSoftc) (cfg : VethCfg) :
    ∃ vip nb_vip, sc.readVip inet_pton4 cfg = some { sc with vip := vip, nb_vip := nb_vip } := by
  obtain ⟨vip, hstore, -⟩ := storeVips_valid inet_pton4 (j := 0) sc.vip
    (Nat.le_trans (Nat.le_of_eq (Nat.zero_add _)) cfg.vip.le)
  rw [VethSoftc.readVip, hstore]
  split
  · exact ⟨_, _, rfl⟩
  · exact ⟨sc.vip, sc.nb_vip, rfl⟩

theorem readVip6_stored (sc : VethSoftc) (hsc : sc.nb_vip6 = 0) (cfg : VethCfg) :
    ∃ vip6 vip_prefix_length, sc.readVip6 inet_pton6 cfg = some { sc with
        vip6 := vip6, nb_vip6 := (validVips inet_pton6 cfg).length, vip_prefix_length := vip_prefix_length } ∧
      ∀ k ip, (validVips inet_pton6 cfg)[k]? = some ip → vip6 k = ip := by
  obtain ⟨vip6, hstore, -, hvalid⟩ := storeVips_valid inet_pton6 (j := 0) sc.vip6
    (Nat.le_trans (Nat.le_of_eq (Nat.zero_add _)) cfg.vip6.le)
  rw [VethSoftc.readVip6]
  by_cases hany : cfg.vip6.addrs.length ≠ 0
  · have hcount : (0 + (cfg.vip6.addrs.filterMap inet_pton6).length) % 2 ^ 8 = (validVips inet_pton6 cfg).length := by
      have hlength := length_validVips_le inet_pton6 cfg
      rw [VIP_MAX_NUM] at hlength
      rw [Nat.zero_add]
      exact Nat.mod_eq_of_lt (Nat.lt_of_le_of_lt hlength (by decide))
    refine ⟨vip6, prefixOrDefault cfg.vip_prefix_len, ?_, fun k ip hk => ?_⟩
    · rw [if_pos hany, hstore, Option.map_some, hcount]
      rfl
    · rw [← hvalid k ip hk, Nat.zero_add]
  · have hnone : validVips inet_pton6 cfg = [] := by
      rw [validVips, List.length_eq_zero_iff.mp (not_not.mp hany), List.filterMap_nil]
    refine ⟨sc.vip6, sc.vip_prefix_length, ?_, fun k ip hk => ?_⟩
    · rw [if_neg hany, hnone, List.length_nil, ← hsc]
    · rw [hnone] at hk
      cases hk

/-- What the configuration functions leave in a zeroed `softc`. -/
structure ConfigRead (cfg : VethCfg) (sc : VethSoftc) : Prop where
  ip6 : ∀ addr6_str, cfg.addr6_str = some addr6_str → sc.ip6 = (inet_pton6 addr6_str).getD 0
  prefix_length : sc.prefix_length = addr6Prefix cfg
  nb_vip6 : sc.nb_vip6 = (validVips inet_pton6 cfg).length
  vip6 : ∀ k ip, (validVips inet_pton6 cfg)[k]? = some ip → sc.vip6 k = ip

theorem vethConfig_read (host_ifname : List Char) (cfg : VethCfg) :
    ∃ sc, vethConfig inet_pton4 inet_pton6 (VethSoftc.zero host_ifname) cfg = some sc ∧ ConfigRead inet_pton6 cfg sc := by
  obtain ⟨vip, nb_vip, hvip⟩ := readVip_stored inet_pton4 (VethSoftc.zero host_ifname) cfg
  rw [vethConfig, hvip, Option.bind_some, VethSoftc.readAddr6]
  cases haddr6 : cfg.addr6_str with
  | none =>
    obtain ⟨vip6, vip_prefix_length, hread, hvalid⟩ := readVip6_stored inet_pton6
      { VethSoftc.zero host_ifname with vip := vip, nb_vip := nb_vip } rfl cfg
    refine ⟨_, hread, fun addr6_str hsome => ?_, ?_, rfl, hvalid⟩
    · exact absurd (haddr6.symm.trans hsome) (Option.some_ne_none addr6_str).symm
    · rw [addr6Prefix, haddr6]
      rfl
  | some addr6_str =>
    obtain ⟨vip6, vip_prefix_length, hread, hvalid⟩ := readVip6_stored inet_pton6
      { VethSoftc.zero host_ifname with
        vip := vip, nb_vip := nb_vip, ip6 := (inet_pton6 addr6_str).getD 0
        prefix_length := prefixOrDefault cfg.prefix_len } rfl cfg
    refine ⟨_, hread, fun other hother => ?_, ?_, rfl, hvalid⟩
    · rw [Option.some.inj (haddr6.symm.trans hother)]
    · rw [addr6Prefix, haddr6]
      rfl

/-! ## The requests -/

/-- The loop issues the wanted requests exactly when its mask is the wanted one and it is not left early. -/
theorem setvaddr6Loop_iff {sc : VethSoftc} {n : ℕ} (hwidth : sc.prefix_length ≤ 128) (hn : n ≤ 128)
    (ifra_name : List Char) (ifioctl : ℕ → ℤ) (addrs : List (BitVec 128)) {i : ℕ}
    (hvip6 : ∀ k ip, addrs[k]? = some ip → sc.vip6 (i + k) = ip) :
    List.Forall₂ RequestFor (setvaddr6Loop sc ifra_name ifioctl addrs.length i) (addrs.map fun addr => (addr, n)) ↔
      addrs = [] ∨ sc.prefix_length = n ∧ ∀ k, k + 1 < addrs.length → 0 ≤ ifioctl (i + k) := by
  induction addrs generalizing i with
  | nil => exact iff_of_true List.Forall₂.nil (.inl rfl)
  | cons addr addrs ih =>
    have hfirst : sc.vip6 i = addr := hvip6 0 addr rfl
    have hrest : ∀ k ip, addrs[k]? = some ip → sc.vip6 (i + 1 + k) = ip := by
      intro k ip hk
      have hnext := hvip6 (k + 1) ip hk
      rwa [Nat.add_assoc, Nat.add_comm 1 k]
    rw [List.length_cons, setvaddr6Loop, List.map_cons, List.forall₂_cons, RequestFor, hfirst, and_iff_right rfl,
      leadingOnes_prefixmask_iff hwidth hn]
    by_cases hstop : ifioctl i < 0
    · rw [if_pos hstop]
      constructor
      · rintro ⟨hsame, hnil⟩
        have hlast : addrs = [] := List.map_eq_nil_iff.mp (List.forall₂_nil_left_iff.mp hnil)
        exact .inr ⟨hsame, fun k hk => by rw [hlast] at hk; simp at hk⟩
      · rintro (hnil | ⟨hsame, hgo⟩)
        · cases hnil
        · cases addrs with
          | nil => exact ⟨hsame, List.Forall₂.nil⟩
          | cons next rest => exact absurd (hgo 0 (by simp)) (Int.not_le.mpr hstop)
    · rw [if_neg hstop, ih hrest]
      constructor
      · rintro ⟨hsame, htail⟩
        refine .inr ⟨hsame, fun k hk => ?_⟩
        cases k with
        | zero => exact Int.not_lt.mp hstop
        | succ k =>
          rcases htail with hnil | ⟨-, hgo⟩
          · rw [hnil] at hk
            simp at hk
          · have hnext := hgo k (by omega)
            rwa [Nat.add_assoc, Nat.add_comm 1 k] at hnext
      · rintro (hnil | ⟨hsame, hgo⟩)
        · cases hnil
        · refine ⟨hsame, .inr ⟨hsame, fun k hk => ?_⟩⟩
          have hnext := hgo (k + 1) (by omega)
          rwa [Nat.add_comm k 1, ← Nat.add_assoc] at hnext

/-- The requests for an interface are the wanted ones if and only if the configuration is safe. -/
theorem setAddrs6_right_iff {cfg : VethCfg} {sc : VethSoftc} (h : ConfigRead inet_pton6 cfg sc)
    (if_name : Option (List Char)) (ifioctl : ℕ → ℤ) :
    PrefixesRight inet_pton6 cfg (some (setAddrs6 sc cfg if_name ifioctl)) ↔ PrefixesSafe inet_pton6 cfg ifioctl := by
  have hloop : List.Forall₂ RequestFor (if sc.nb_vip6 ≠ 0 then ffVethSetvaddr6 sc cfg if_name ifioctl else [])
      ((validVips inet_pton6 cfg).map fun addr => (addr, prefixOrDefault cfg.vip_prefix_len)) ↔
      PrefixesSafe inet_pton6 cfg ifioctl := by
    have hiff := setvaddr6Loop_iff (h.prefix_length ▸ addr6Prefix_le cfg) (prefixOrDefault_le cfg.vip_prefix_le)
      (if_name.getD (cfg.vip_ifname.getD sc.host_ifname)) ifioctl (validVips inet_pton6 cfg) (i := 0)
      (fun k ip hk => by rw [Nat.zero_add]; exact h.vip6 k ip hk)
    rw [← h.nb_vip6, h.prefix_length] at hiff
    simp only [Nat.zero_add] at hiff
    by_cases hany : sc.nb_vip6 ≠ 0
    · rw [if_pos hany, PrefixesSafe, ← h.nb_vip6]
      exact hiff
    · have hnone : validVips inet_pton6 cfg = [] :=
        List.length_eq_zero_iff.mp (h.nb_vip6.symm.trans (not_not.mp hany))
      rw [if_neg hany, PrefixesSafe, hnone]
      exact iff_of_true List.Forall₂.nil (.inl rfl)
  cases haddr6 : cfg.addr6_str with
  | none =>
    rw [PrefixesRight, setAddrs6, wantedAddrs, haddr6]
    exact hloop
  | some addr6_str =>
    rw [PrefixesRight, setAddrs6, wantedAddrs, haddr6]
    refine (List.forall₂_cons.trans (and_iff_right ?_)).trans hloop
    have hwidth : sc.prefix_length = prefixOrDefault cfg.prefix_len := by
      rw [h.prefix_length, addr6Prefix, haddr6]
      rfl
    refine ⟨h.ip6 addr6_str haddr6, ?_⟩
    rw [← hwidth]
    exact leadingOnes_prefixmask sc.prefix_length

end

/-- The IPv6 addresses of a port and of a VLAN are installed with their own prefixes, and no table is written behind its
end, if and only if the configuration is safe. -/
theorem prefixes_right_iff (inet_pton4 : List Char → Option (BitVec 32)) (inet_pton6 : List Char → Option (BitVec 128))
    (host_ifname : List Char) (cfg : VethCfg) (vlan_if_name : List Char) (ifioctl : ℕ → ℤ) :
    (PrefixesRight inet_pton6 cfg
        ((ffVethConfig inet_pton4 inet_pton6 (VethSoftc.zero host_ifname) cfg).map fun sc =>
          setAddrs6 sc cfg none ifioctl) ↔
      PrefixesSafe inet_pton6 cfg ifioctl) ∧
    (PrefixesRight inet_pton6 cfg
        ((ffVethVlanConfig inet_pton4 inet_pton6 (VethSoftc.zero []) cfg).map fun sc =>
          setAddrs6 sc cfg (some vlan_if_name) ifioctl) ↔
      PrefixesSafe inet_pton6 cfg ifioctl) := by
  obtain ⟨port, hport, hportRead⟩ := vethConfig_read inet_pton4 inet_pton6 host_ifname cfg
  obtain ⟨vlan, hvlan, hvlanRead⟩ := vethConfig_read inet_pton4 inet_pton6 [] cfg
  rw [ffVethConfig, ffVethVlanConfig, hport, hvlan]
  exact ⟨setAddrs6_right_iff inet_pton6 hportRead none ifioctl,
    setAddrs6_right_iff inet_pton6 hvlanRead (some vlan_if_name) ifioctl⟩

/-- An address in `vip_addr6` without an `addr6` is installed with a mask of no bits. -/
theorem vip_without_addr6 :
    ¬ ∀ (inet_pton4 : List Char → Option (BitVec 32)) (inet_pton6 : List Char → Option (BitVec 128))
      (host_ifname : List Char) (cfg : VethCfg) (ifioctl : ℕ → ℤ),
      PrefixesRight inet_pton6 cfg
        ((ffVethConfig inet_pton4 inet_pton6 (VethSoftc.zero host_ifname) cfg).map fun sc =>
          setAddrs6 sc cfg none ifioctl) := by
  intro h
  let cfg : VethCfg := ⟨none, ⟨[], by decide⟩, none, 0, ⟨[[':', ':', '1']], by decide⟩, 64, by decide, by decide⟩
  obtain ⟨sc, hread, hsc⟩ := vethConfig_read (fun _ => none) (fun _ => some 1) [] cfg
  have hright := h (fun _ => none) (fun _ => some 1) [] cfg (fun _ => 0)
  rw [ffVethConfig, hread] at hright
  rcases (setAddrs6_right_iff _ hsc none _).mp hright with hnone | ⟨hsame, -⟩
  · exact absurd hnone (by decide)
  · exact absurd hsame (by decide)

end FStack.Analysis
