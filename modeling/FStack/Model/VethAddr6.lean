import FStack.Model.ConfigText

/-!
# The addresses of an interface

`ff_veth_config` and `ff_veth_vlan_config` read the addresses of a port and of a VLAN into an `ff_veth_softc`, and
`ff_veth_setaddr6` and `ff_veth_setvaddr6` hand the IPv6 addresses to the stack with `SIOCAIFADDR_IN6`
(`lib/ff_veth.c`).  The further addresses of an interface come in a list that `vip_cfg_handler` and `vip6_cfg_handler`
split (`lib/ff_config.c`).

`inet_pton` and what `ifioctl` returns are parameters.  A table written behind its end makes the result `none`.
-/

set_option autoImplicit false

namespace FStack.Model

def VIP_MAX_NUM : ℕ := 64

/-- `vip_addr_array` and `nb_vip`, or `vip_addr6_array` and `nb_vip6`. -/
structure VipList where
  addrs : List (List Char)
  le : addrs.length ≤ VIP_MAX_NUM

theorem length_rteStrsplit_le (delim : Char) (n : ℕ) (s : List Char) : (rteStrsplit delim n s).length ≤ n := by
  fun_induction rteStrsplit delim n s with
  | case1 => exact Nat.le_refl 0
  | case2 => exact Nat.zero_le _
  | case3 => exact Nat.le_refl 1
  | case4 => exact Nat.le_refl 1
  | case5 _ _ _ ih => exact Nat.succ_le_succ ih

/-- `vip_cfg_handler` and `vip6_cfg_handler`: the list of a port or of a VLAN, and what is returned.
SOURCE: lib/ff_config.c:380-427, 428-476 -/
def vipListHandler (cur : VipList) (vip_addr_str : List Char) (alloc : Bool) : VipList × ℤ :=
  let tokens := rteStrsplit ';' VIP_MAX_NUM vip_addr_str
  if tokens.isEmpty then (cur, 1)
  else if alloc then (⟨tokens, length_rteStrsplit_le ';' VIP_MAX_NUM vip_addr_str⟩, 1)
  else (cur, 0)

/-- What `struct ff_port_cfg` and `struct ff_vlan_cfg` say about an interface.  `vip_ifname` is there for a port only.
SOURCE: lib/ff_config.h:128-196 -/
structure VethCfg where
  vip_ifname : Option (List Char)
  vip : VipList
  addr6_str : Option (List Char)
  prefix_len : ℕ
  vip6 : VipList
  vip_prefix_len : ℕ
  prefix_le : prefix_len ≤ 128
  vip_prefix_le : vip_prefix_len ≤ 128

/-- `struct ff_veth_softc`: its tables of further addresses, and its IPv6 address. -/
structure VethSoftc where
  host_ifname : List Char
  vip : ℕ → BitVec 32
  nb_vip : ℕ
  ip6 : BitVec 128
  prefix_length : ℕ
  vip6 : ℕ → BitVec 128
  nb_vip6 : ℕ
  vip_prefix_length : ℕ

/-- The `softc` is zeroed before it is filled. -/
def VethSoftc.zero (host_ifname : List Char) : VethSoftc := ⟨host_ifname, fun _ => 0, 0, 0, 0, fun _ => 0, 0, 0⟩

/-- The loop that stores the valid ones of some addresses, from entry `j` of the table on: the table, and `j` after it.
SOURCE: lib/ff_veth.c:106-112, 135-141 -/
def storeVips {w : ℕ} (inet_pton : List Char → Option (BitVec w)) :
    List (List Char) → ℕ → (ℕ → BitVec w) → Option ((ℕ → BitVec w) × ℕ)
  | [], j, table => some (table, j)
  | addr :: addrs, j, table =>
    match inet_pton addr with
    | none => storeVips inet_pton addrs j table
    | some ip =>
      if j < VIP_MAX_NUM then storeVips inet_pton addrs (j + 1) (fun i => if i = j then ip else table i) else none

section Config

variable (inet_pton4 : List Char → Option (BitVec 32)) (inet_pton6 : List Char → Option (BitVec 128))

/-- SOURCE: lib/ff_veth.c:105-115, 161-171 -/
def VethSoftc.readVip (sc : VethSoftc) (cfg : VethCfg) : Option VethSoftc :=
  if cfg.vip.addrs.length ≠ 0 then
    (storeVips inet_pton4 cfg.vip.addrs 0 sc.vip).map fun r => { sc with vip := r.1, nb_vip := r.2 % 2 ^ 8 }
  else some sc

/-- SOURCE: lib/ff_veth.c:118-132, 174-188 -/
def VethSoftc.readAddr6 (sc : VethSoftc) (cfg : VethCfg) : VethSoftc :=
  match cfg.addr6_str with
  | none => sc
  | some addr6_str =>
    { sc with
      ip6 := (inet_pton6 addr6_str).getD sc.ip6
      prefix_length := if cfg.prefix_len = 0 then 64 else cfg.prefix_len }

/-- SOURCE: lib/ff_veth.c:134-145, 190-201 -/
def VethSoftc.readVip6 (sc : VethSoftc) (cfg : VethCfg) : Option VethSoftc :=
  if cfg.vip6.addrs.length ≠ 0 then
    (storeVips inet_pton6 cfg.vip6.addrs 0 sc.vip6).map fun r =>
      { sc with
        vip6 := r.1
        nb_vip6 := r.2 % 2 ^ 8
        vip_prefix_length := if cfg.vip_prefix_len = 0 then 64 else cfg.vip_prefix_len }
  else some sc

/-- What `ff_veth_config` and `ff_veth_vlan_config` do with the further addresses and with the IPv6 address. -/
def vethConfig (sc : VethSoftc) (cfg : VethCfg) : Option VethSoftc :=
  (sc.readVip inet_pton4 cfg).bind fun sc => (sc.readAddr6 inet_pton6 cfg).readVip6 inet_pton6 cfg

/-- SOURCE: lib/ff_veth.c:94-149 -/
def ffVethConfig (sc : VethSoftc) (cfg : VethCfg) : Option VethSoftc := vethConfig inet_pton4 inet_pton6 sc cfg

/-- SOURCE: lib/ff_veth.c:151-205 -/
def ffVethVlanConfig (sc : VethSoftc) (cfg : VethCfg) : Option VethSoftc := vethConfig inet_pton4 inet_pton6 sc cfg

end Config

/-! ## The requests -/

/-- `struct in6_aliasreq`: the name, the address and the bytes of the prefix mask. -/
structure AliasReq where
  ifra_name : List Char
  ifra_addr : BitVec 128
  ifra_prefixmask : ℕ → BitVec 8

/-- The mask that is made of a prefix length: whole bytes, and what is left in the next one.
SOURCE: lib/ff_veth.c:806-812, 872-878 -/
def prefixmask (prefix_length : ℕ) : ℕ → BitVec 8 := fun i =>
  let mask_size_mod := prefix_length % 8
  if mask_size_mod ≠ 0 ∧ i = prefix_length / 8 then ((1 <<< mask_size_mod) - 1) <<< (8 - mask_size_mod)
  else if i < prefix_length / 8 then 0xff
  else 0

/-- `ff_veth_setaddr6`.
SOURCE: lib/ff_veth.c:789-825 -/
def ffVethSetaddr6 (sc : VethSoftc) (if_name : Option (List Char)) : AliasReq :=
  ⟨if_name.getD sc.host_ifname, sc.ip6, prefixmask sc.prefix_length⟩

/-- The loop of `ff_veth_setvaddr6`, from address `i` on with `n` to go: the requests that are issued.  `ifioctl i` is
what `ifioctl` returns for address `i`.
SOURCE: lib/ff_veth.c:888-896 -/
def setvaddr6Loop (sc : VethSoftc) (ifra_name : List Char) (ifioctl : ℕ → ℤ) : ℕ → ℕ → List AliasReq
  | 0, _ => []
  | n + 1, i =>
    ⟨ifra_name, sc.vip6 i, prefixmask sc.prefix_length⟩ ::
      if ifioctl i < 0 then [] else setvaddr6Loop sc ifra_name ifioctl n (i + 1)

/-- `ff_veth_setvaddr6`.
SOURCE: lib/ff_veth.c:854-902 -/
def ffVethSetvaddr6 (sc : VethSoftc) (cfg : VethCfg) (if_name : Option (List Char)) (ifioctl : ℕ → ℤ) :
    List AliasReq :=
  setvaddr6Loop sc (if_name.getD (cfg.vip_ifname.getD sc.host_ifname)) ifioctl sc.nb_vip6 0

/-- The requests for one interface, after its configuration was read.
SOURCE: lib/ff_veth.c:975-997, 1049-1072 -/
def setAddrs6 (sc : VethSoftc) (cfg : VethCfg) (if_name : Option (List Char)) (ifioctl : ℕ → ℤ) : List AliasReq :=
  (if cfg.addr6_str.isSome then [ffVethSetaddr6 sc if_name] else []) ++
    if sc.nb_vip6 ≠ 0 then ffVethSetvaddr6 sc cfg if_name ifioctl else []

end FStack.Model
