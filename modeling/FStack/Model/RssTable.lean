import FStack.Model.RssHash
import FStack.Prelude.Probing

/-!
# The precomputed port table

`ff_rss_tbl` and `ff_rss_tbl6` (`lib/ff_dpdk_if.c`) hold, for each configured remote
address and port and each local address, the local ports whose packets come back to
this process's queue.  The outer table is addressed by remote address and port, and each
of its slots holds a small table addressed by local address.  The functions of the two
families differ in the address type, its "any" value, the two index computations and the
check they call; these are the fields of `RssFamily`, and each source function is the
common body at one family.

The names are the source's: in an RSS entry `saddr` and `sport` are the remote side, and
`daddr` and the `dport` array the local one.
-/

set_option autoImplicit false

namespace FStack.Model

open FStack.Prelude

def FF_RSS_TBL_MAX_SADDR_SPORT_ENTRIES : ℕ := 16
def FF_RSS_TBL_MAX_DADDR : ℕ := 4
def FF_RSS_TBL_MAX_DPORT : ℕ := 65536
def ENOENT : ℤ := 2

/-- `struct ff_rss_tbl_dip_type` and `struct ff_rss_tbl6_dip_type`. -/
structure RssDip (A : Type) where
  daddr : A
  first : ℕ
  last : ℕ
  first_idx : ℕ
  last_idx : ℕ
  num : ℕ
  dport : ℕ → ℕ

/-- `struct ff_rss_tbl_type` and `struct ff_rss_tbl6_type`. -/
structure RssSlot (A : Type) where
  saddr : A
  sport : UInt16
  num : ℕ
  dip_tbl : Fin 4 → RssDip A

/-- `ff_rss_tbl` and `ff_rss_tbl6`. -/
abbrev RssTbl (A : Type) := Fin 16 → RssSlot A

/-- What the IPv4 and the IPv6 table functions do not share. -/
structure RssFamily (A : Type) where
  any : A
  isAny : A → Bool
  isAny_iff : ∀ a, isAny a = true ↔ a = any
  saddrSportIdx : A → UInt16 → Fin 16
  daddrIdx : A → Fin 4
  rssCheck : ℕ → A → A → UInt16 → UInt16 → Bool

/-- One entry of the `rss_tbl` configuration, for one family. -/
structure RssTuple (A : Type) where
  port_id : ℕ
  daddr : A
  saddr : A
  sport : UInt16

/-- What becomes of a configuration entry: it is inserted, or ignored for one of three
reasons. -/
inductive InitOutcome where
  | inserted
  | tooManySaddrSport
  | duplicate
  | tooManyDaddr
deriving DecidableEq, Repr

/-- The result of `ff_rss_tbl_get_portrange` when it finds an entry: the two indices, and the
place of the `dport` array that `rss_portrange` points to. -/
structure PortRange where
  rss_first : ℕ
  rss_last : ℕ
  rss_portrange : Fin 16 × Fin 4
deriving DecidableEq

section Family

variable {A : Type} [DecidableEq A] (fam : RssFamily A)

/-- The table after `memset`. -/
def zeroTbl : RssTbl A := fun _ => ⟨fam.any, 0, 0, fun _ => ⟨fam.any, 0, 0, 0, 0, 0, fun _ => 0⟩⟩

/-- Replace one entry of the table. -/
def setDip (t : RssTbl A) (i : Fin 16) (j : Fin 4) (e : RssDip A) : RssTbl A :=
  Function.update t i { t i with dip_tbl := Function.update (t i).dip_tbl j e }

/-- The probe of the outer table: it stops at a slot without source address and at the slot of
`saddr` and `sport`.
SOURCE: lib/ff_dpdk_if.c:2693-2705, lib/ff_dpdk_if.c:2873-2911 -/
def saddrSportProbe (t : RssTbl A) (saddr : A) (sport : UInt16) : Option (Fin 16) :=
  probe (fun i => fam.isAny (t i).saddr || (decide ((t i).saddr = saddr) && (t i).sport == sport))
    FF_RSS_TBL_MAX_SADDR_SPORT_ENTRIES (fam.saddrSportIdx saddr sport)

/-- The probe of a slot's inner table.
SOURCE: lib/ff_dpdk_if.c:2721-2738, lib/ff_dpdk_if.c:2883-2899 -/
def daddrProbe (s : RssSlot A) (daddr : A) : Option (Fin 4) :=
  probe (fun j => fam.isAny (s.dip_tbl j).daddr || decide ((s.dip_tbl j).daddr = daddr))
    FF_RSS_TBL_MAX_DADDR (fam.daddrIdx daddr)

/-- The variables of the port loop of `ff_rss_tbl_init`; `prev_dport` is `none` for -1. -/
structure PortScan (A : Type) where
  dip : RssDip A
  k : ℕ
  prev_dport : Option ℕ

/-- The body of the port loop.
SOURCE: lib/ff_dpdk_if.c:2757-2767 -/
def portScanStep (check : ℕ → Bool) (st : PortScan A) (j : ℕ) : PortScan A :=
  if check j then
    { dip := { st.dip with
        num := (st.dip.num + 1) % 65536
        dport := Function.update st.dip.dport st.k j
        first := if st.prev_dport = none then j else st.dip.first }
      k := st.k + 1
      prev_dport := some j }
  else st

/-- The port loop.  Index 0 of `dport` is the index of the last port selected.
SOURCE: lib/ff_dpdk_if.c:2751-2767 -/
def portScan (check : ℕ → Bool) (e : RssDip A) : PortScan A :=
  (List.range FF_RSS_TBL_MAX_DPORT).foldl (portScanStep check)
    ⟨{ e with dport := Function.update e.dport 0 1, first_idx := 1 }, 1, none⟩

/-- What follows the port loop.  When every port passes the check, `num` and `last_idx` are
65535 and the last port is left out.
SOURCE: lib/ff_dpdk_if.c:2768-2779 -/
def closePortScan (daddr : A) (st : PortScan A) : RssDip A :=
  let e :=
    if st.k = FF_RSS_TBL_MAX_DPORT + 1 then { st.dip with num := st.k - 2, last_idx := st.k - 2 }
    else { st.dip with last_idx := st.k - 1 }
  { e with last := st.prev_dport.getD 65535, daddr := daddr }

/-- A new entry.
SOURCE: lib/ff_dpdk_if.c:2751-2779 -/
def fillDip (check : ℕ → Bool) (daddr : A) (e : RssDip A) : RssDip A :=
  closePortScan daddr (portScan check e)

/-- The body of the loop over the configuration.
SOURCE: lib/ff_dpdk_if.c:2675-2793, lib/ff_dpdk_if.c:3488-3573 -/
def rssTblInsert (t : RssTbl A) (c : RssTuple A) : RssTbl A × InitOutcome :=
  match saddrSportProbe fam t c.saddr c.sport with
  | none => (t, .tooManySaddrSport)
  | some i =>
    match daddrProbe fam (t i) c.daddr with
    | none => (t, .tooManyDaddr)
    | some j =>
      if fam.isAny ((t i).dip_tbl j).daddr then
        let check (p : ℕ) := fam.rssCheck c.port_id c.saddr c.daddr c.sport (htons (UInt16.ofNat p))
        let e := fillDip check c.daddr ((t i).dip_tbl j)
        (Function.update t i
          { saddr := c.saddr
            sport := c.sport
            num := ((t i).num + 1) % 65536
            dip_tbl := Function.update (t i).dip_tbl j e }, .inserted)
      else (t, .duplicate)

/-- The loop over the configuration, with what became of each entry. -/
def rssTblInitLoop : RssTbl A → List (RssTuple A) → RssTbl A × List (RssTuple A × InitOutcome)
  | t, [] => (t, [])
  | t, c :: cs =>
    let (t', o) := rssTblInsert fam t c
    let (t'', log) := rssTblInitLoop t' cs
    (t'', (c, o) :: log)

/-- What `ff_rss_tbl_init` and `ff_rss_tbl6_init` leave. -/
structure RssTblInit (A : Type) where
  tbl : RssTbl A
  log : List (RssTuple A × InitOutcome)
  ret : ℤ

/-- `sc` says whether `ff_veth_get_softc` succeeds. -/
def rssTblInit (sc : Bool) (cfgs : List (RssTuple A)) : RssTblInit A :=
  if sc then
    let r := rssTblInitLoop fam (zeroTbl fam) cfgs
    ⟨r.1, r.2, 0⟩
  else ⟨zeroTbl fam, [], -1⟩

/-- The two indices that `ff_rss_tbl_set_portrange` computes for an entry. -/
structure IdxRange where
  first_idx : ℕ
  last_idx : ℕ
deriving DecidableEq, Repr

/-- The loop over `k` of `ff_rss_tbl_set_portrange`, from `k` on, for at most `fuel` rounds.
SOURCE: lib/ff_dpdk_if.c:2825-2847 -/
def portRangeScan (first last num : ℕ) (dport : ℕ → ℕ) : ℕ → ℕ → IdxRange → IdxRange
  | 0, _, r => r
  | fuel + 1, k, r =>
    let hit := r.first_idx = 0 ∧ first ≤ dport k
    let r := if hit then { r with first_idx := k } else r
    if hit ∧ dport num < last then r
    else if hit ∧ first = last then { r with last_idx := k }
    else if dport k = last then { r with last_idx := k }
    else if last < dport k then { r with last_idx := if 1 < k then k - 1 else k }
    else portRangeScan first last num dport fuel (k + 1) r

/-- What a call of `ff_rss_tbl_set_portrange` does to one entry.
SOURCE: lib/ff_dpdk_if.c:2821-2847 -/
def setDipRange (first last : ℕ) (e : RssDip A) : RssDip A :=
  let r := portRangeScan first last e.num e.dport e.num 1 ⟨0, e.last_idx⟩
  { e with first := first, last := last, first_idx := r.first_idx, last_idx := r.last_idx }

/-- The loops over the entries of `ff_rss_tbl_set_portrange`, with its early return. -/
def setPortrangeLoop (first last : ℕ) : List (Fin 16 × Fin 4) → RssTbl A → RssTbl A × ℤ
  | [], t => (t, 0)
  | (i, j) :: rest, t =>
    if fam.isAny (t i).saddr || fam.isAny ((t i).dip_tbl j).daddr then
      setPortrangeLoop first last rest t
    else
      let e := setDipRange first last ((t i).dip_tbl j)
      if e.first_idx = 0 ∨ e.last_idx < e.first_idx then (setDip t i j e, -1)
      else setPortrangeLoop first last rest (setDip t i j e)

/-- The order in which the entries are visited. -/
def tblIndices : List (Fin 16 × Fin 4) :=
  (List.finRange 16).flatMap fun i => (List.finRange 4).map fun j => (i, j)

/-- `enable` is `rss_check_cfgs != NULL && rss_check_cfgs->enable != 0`.
SOURCE: lib/ff_dpdk_if.c:2802-2859, lib/ff_dpdk_if.c:3581-3637 -/
def rssTblSetPortrange (enable : Bool) (t : RssTbl A) (first last : ℕ) : RssTbl A × ℤ :=
  if last < first ∨ enable = false then (t, -1)
  else setPortrangeLoop fam first last tblIndices t

/-- The lookup; a failure is the negative value returned.
SOURCE: lib/ff_dpdk_if.c:2861-2914, lib/ff_dpdk_if.c:3639-3685 -/
def rssTblGetPortrange (enable : Bool) (t : RssTbl A) (saddr daddr : A) (sport : UInt16) :
    Except ℤ PortRange :=
  if enable = false then .error (-1)
  else
    match saddrSportProbe fam t saddr sport with
    | none => .error (-ENOENT)
    | some i =>
      if fam.isAny (t i).saddr then .error (-ENOENT)
      else
        match daddrProbe fam (t i) daddr with
        | none => .error (-ENOENT)
        | some j =>
          if fam.isAny ((t i).dip_tbl j).daddr then .error (-ENOENT)
          else
            .ok ⟨((t i).dip_tbl j).first_idx, ((t i).dip_tbl j).last_idx, (i, j)⟩

end Family

/-- The index computations of the IPv4 table: the address's last octet is added to it.
SOURCE: lib/ff_dpdk_if.c:2687-2691 -/
def rssFamily4 (conf : RssConf) : RssFamily UInt32 where
  any := 0
  isAny a := a == 0
  isAny_iff := by simp
  saddrSportIdx saddr sport := Fin.ofNat 16 ((saddr + (saddr >>> 24)) ^^^ sport.toUInt32).toNat
  daddrIdx daddr := Fin.ofNat 4 (daddr + (daddr >>> 24)).toNat
  rssCheck := ffRssCheck conf

/-- `ff_in6_is_any`.
SOURCE: lib/ff_dpdk_if.c:3414-3423 -/
def ffIn6IsAny (addr6 : In6Addr) : Bool := decide (∀ i, addr6 i = 0)

/-- `ff_in6_fold`.
SOURCE: lib/ff_dpdk_if.c:3425-3435 -/
def ffIn6Fold (addr6 : In6Addr) : UInt32 :=
  (List.finRange 16).foldl
    (fun v i => v + ((addr6 i).toUInt32 <<< UInt32.ofNat ((i.val &&& 3) * 8))) 0

/-- SOURCE: lib/ff_dpdk_if.c:3500-3502 -/
def rssFamily6 (conf : RssConf) : RssFamily In6Addr where
  any := fun _ => 0
  isAny := ffIn6IsAny
  isAny_iff a := by
    simp only [ffIn6IsAny, decide_eq_true_eq]
    exact ⟨funext, fun h i => congrFun h i⟩
  saddrSportIdx saddr6 sport := Fin.ofNat 16 (ffIn6Fold saddr6 ^^^ sport.toUInt32).toNat
  daddrIdx daddr6 := Fin.ofNat 4 (ffIn6Fold daddr6).toNat
  rssCheck := ffRssCheck6 conf

inductive AddressFamily where
  | inet
  | inet6
deriving DecidableEq, Repr

/-- `struct ff_rss_tbl_cfg`. -/
structure RssTblCfg where
  port_id : ℕ
  sport : UInt16
  daddr : UInt32
  saddr : UInt32
  family : AddressFamily
  daddr6 : In6Addr
  saddr6 : In6Addr

/-- The entries that `ff_rss_tbl_init` does not skip. -/
def cfgs4 (cfgs : List RssTblCfg) : List (RssTuple UInt32) :=
  (cfgs.filter (·.family ≠ .inet6)).map fun c => ⟨c.port_id, c.daddr, c.saddr, c.sport⟩

/-- The entries that `ff_rss_tbl6_init` does not skip. -/
def cfgs6 (cfgs : List RssTblCfg) : List (RssTuple In6Addr) :=
  (cfgs.filter (·.family = .inet6)).map fun c => ⟨c.port_id, c.daddr6, c.saddr6, c.sport⟩

/-- SOURCE: lib/ff_dpdk_if.c:2660-2800 -/
def ffRssTblInit (conf : RssConf) (sc : Bool) (cfgs : List RssTblCfg) : RssTblInit UInt32 :=
  rssTblInit (rssFamily4 conf) sc (cfgs4 cfgs)

/-- SOURCE: lib/ff_dpdk_if.c:3470-3579 -/
def ffRssTbl6Init (conf : RssConf) (sc : Bool) (cfgs : List RssTblCfg) : RssTblInit In6Addr :=
  rssTblInit (rssFamily6 conf) sc (cfgs6 cfgs)

/-- SOURCE: lib/ff_dpdk_if.c:2802-2859 -/
def ffRssTblSetPortrange (conf : RssConf) (enable : Bool) (t : RssTbl UInt32) (first last : ℕ) :
    RssTbl UInt32 × ℤ :=
  rssTblSetPortrange (rssFamily4 conf) enable t first last

/-- SOURCE: lib/ff_dpdk_if.c:3581-3637 -/
def ffRssTbl6SetPortrange (conf : RssConf) (enable : Bool) (t : RssTbl In6Addr) (first last : ℕ) :
    RssTbl In6Addr × ℤ :=
  rssTblSetPortrange (rssFamily6 conf) enable t first last

/-- SOURCE: lib/ff_dpdk_if.c:2861-2914 -/
def ffRssTblGetPortrange (conf : RssConf) (enable : Bool) (t : RssTbl UInt32)
    (saddr daddr : UInt32) (sport : UInt16) : Except ℤ PortRange :=
  rssTblGetPortrange (rssFamily4 conf) enable t saddr daddr sport

/-- SOURCE: lib/ff_dpdk_if.c:3639-3685 -/
def ffRssTbl6GetPortrange (conf : RssConf) (enable : Bool) (t : RssTbl In6Addr)
    (saddr6 daddr6 : In6Addr) (sport : UInt16) : Except ℤ PortRange :=
  rssTblGetPortrange (rssFamily6 conf) enable t saddr6 daddr6 sport

end FStack.Model
