import FStack.Model.RssTable

/-!
# Choosing a local port

`in_pcb_lport_dest` (`freebsd/netinet/in_pcb.c`) called with
`INPLOOKUP_LPORT_RSS_CHECK`, for an IPv4 socket.  Three selectors are tried in turn: the
precomputed table, `ff_rss_adjust_sport` (`lib/ff_dpdk_if.c`), which solves for a port
with `rte_thash_adjust_tuple`, and the scan of the range with `ff_rss_check`.

State that outlives a call is in `LportState`: the port table with its cursors
(`dport[0]`), the static `rss_tbl_init` and the three cursors of `struct inpcbinfo`.
What a call finds around it (the sysctl values, the ports in use, the egress interface,
the random numbers) is in `LportCall`.
-/

set_option autoImplicit false

namespace FStack.Model

/-- The part of an `rte_thash` context that a caller can rely on. -/
structure ThashCtx where
  key_len : ℕ
  key : ℕ → UInt8
  reta_sz_log : ℕ

/-- The settings of the process.  `enable` is false when there is no `rss_check` section, and
`thash_adjust` is then true.  `thash` is the context of a port that is ready, and `adjust` stands for
`rte_thash_adjust_tuple`: the tuple it leaves when it returns 0. -/
structure RssSys where
  conf : RssConf
  enable : Bool
  recheck : Bool
  thash_adjust : Bool
  thash : ℕ → Option ThashCtx
  adjust : ThashCtx → List UInt8 → ℕ → Option (List UInt8)

/-- `ntohs` of the port in bytes 10 and 11 of a tuple. -/
def tuplePort (tuple : List UInt8) : ℕ := (tuple.getD 10 0).toNat * 256 + (tuple.getD 11 0).toNat

/-- The tuple in the field order of the reply.
SOURCE: lib/ff_dpdk_if.c:3343-3347 -/
def replyTuple (saddr daddr : UInt32) (dport : UInt16) (base : ℕ) : List UInt8 :=
  bytes32 saddr ++ bytes32 daddr ++ bytes16 dport ++ bytes16 (htons (UInt16.ofNat base))

/-- The loop of `ff_rss_adjust_sport`, for at most `tries` rounds.
SOURCE: lib/ff_dpdk_if.c:3323-3407 -/
def adjustLoop (sys : RssSys) (ctx : ThashCtx) (port_id : ℕ) (saddr daddr : UInt32) (dport : UInt16)
    (first last base : ℕ) : ℕ → ℕ → Option ℕ
  | 0, _ => none
  | tries + 1, desired =>
    let reta_size := sys.conf.rss_reta_size port_id
    let nb_queues := sys.conf.nb_queue_list port_id
    let desired := if reta_size ≤ desired then sys.conf.tx_queue_id port_id else desired
    match sys.adjust ctx (replyTuple saddr daddr dport base) (desired &&& (reta_size - 1)) with
    | some tuple =>
      let host_lport := tuplePort tuple
      if host_lport < first ∨ last < host_lport then
        adjustLoop sys ctx port_id saddr daddr dport first last base tries (desired + nb_queues)
      else if sys.recheck = false ∨
          ffRssCheck sys.conf port_id saddr daddr dport (htons (UInt16.ofNat host_lport)) then
        some host_lport
      else adjustLoop sys ctx port_id saddr daddr dport first last base tries (desired + nb_queues)
    | none => adjustLoop sys ctx port_id saddr daddr dport first last base tries (desired + nb_queues)

/-- The first multiple of the table size from `first` on, in `uint16_t`.
SOURCE: lib/ff_dpdk_if.c:3302 -/
def alignedBase (first reta_size : ℕ) : ℕ :=
  (((BitVec.ofNat 32 first + BitVec.ofNat 32 reta_size - 1) &&&
    ~~~ (BitVec.ofNat 32 reta_size - 1)).toNat) % 65536

/-- `ff_rss_adjust_sport`; `r1` and `r2` are the two random numbers it draws.
SOURCE: lib/ff_dpdk_if.c:3250-3411 -/
def ffRssAdjustSport (sys : RssSys) (port_id : ℕ) (saddr daddr : UInt32) (dport : UInt16)
    (first last r1 r2 : ℕ) : Option ℕ :=
  match sys.thash port_id with
  | none => none
  | some ctx =>
    let nb_queues := sys.conf.nb_queue_list port_id
    let reta_size := sys.conf.rss_reta_size port_id
    let queueid := sys.conf.tx_queue_id port_id
    if sys.thash_adjust = false then none
    else if nb_queues ≤ 1 then none
    else if last < first then none
    else
      let base := alignedBase first reta_size
      -- for a table size of 0 the sum wraps in `uint32_t` and is above `last`
      if base < first ∨ reta_size = 0 ∨ last < base + reta_size - 1 then none
      else
        let nblocks := ((last - base + 1) / reta_size) % 65536
        if nblocks = 0 then none
        else
          let base := (base + (r1 % nblocks) * reta_size) % 65536
          let tries := (reta_size + nb_queues - 1) / nb_queues
          let desired := queueid + (r2 % tries) * nb_queues
          let desired := if reta_size ≤ desired then queueid else desired
          adjustLoop sys ctx port_id saddr daddr dport first last base tries desired

/-- An interface: the loopback, which has no `if_softc`, or a veth, with a port behind it.  There are no
interfaces of VLANs, whose `if_softc` is not that of a veth. -/
inductive Ifp where
  | loopback
  | veth (port_id : ℕ)
deriving DecidableEq, Repr

/-- The range flag of a socket. -/
inductive PortFlag where
  | default
  | highport
  | lowport
deriving DecidableEq, Repr

/-- One call: the socket's range flag, the result of `priv_check_cred`, the sysctl values, the
addresses, the ports that `in_pcblookup_local` finds in use, the interface that
`ifa_ifwithnet` finds for the local or else the foreign address, and the random numbers. -/
structure LportCall where
  flag : PortFlag
  privileged : Bool
  ipport_hifirstauto : ℕ
  ipport_hilastauto : ℕ
  ipport_lowfirstauto : ℕ
  ipport_lowlastauto : ℕ
  ipport_firstauto : ℕ
  ipport_lastauto : ℕ
  ipport_randomized : Bool
  faddr : UInt32
  laddr : UInt32
  fport : UInt16
  used : ℕ → Bool
  ifp : Option Ifp
  rand : ℕ → ℕ

namespace LportCall

/-- The two ends as read from the sysctl values. -/
def ends (c : LportCall) : ℕ × ℕ :=
  match c.flag with
  | .highport => (c.ipport_hifirstauto, c.ipport_hilastauto)
  | .lowport => (c.ipport_lowfirstauto, c.ipport_lowlastauto)
  | .default => (c.ipport_firstauto, c.ipport_lastauto)

def first (c : LportCall) : ℕ := if c.ends.2 < c.ends.1 then c.ends.2 else c.ends.1
def last (c : LportCall) : ℕ := if c.ends.2 < c.ends.1 then c.ends.1 else c.ends.2

/-- `dorandom`. -/
def dorandom (c : LportCall) : Bool := c.ipport_randomized && c.first != c.last

/-- The call gets past `priv_check_cred`. -/
def admitted (c : LportCall) : Bool := c.flag != .lowport || c.privileged

end LportCall

/-- `static int rss_tbl_init`. -/
inductive TblStatus where
  | notInit
  | successed
  | failed
deriving DecidableEq, Repr

structure LportState where
  rss_tbl_init : TblStatus
  tbl : RssTbl UInt32
  ipi_lastport : ℕ
  ipi_lasthi : ℕ
  ipi_lastlow : ℕ

namespace LportState

/-- `*lastport`. -/
def lastport (s : LportState) : PortFlag → ℕ
  | .default => s.ipi_lastport
  | .highport => s.ipi_lasthi
  | .lowport => s.ipi_lastlow

/-- `*lastport = p`. -/
def setLastport (s : LportState) (f : PortFlag) (p : ℕ) : LportState :=
  match f with
  | .default => { s with ipi_lastport := p }
  | .highport => { s with ipi_lasthi := p }
  | .lowport => { s with ipi_lastlow := p }

end LportState

/-- What `in_pcb_lport_dest` returns; a port in host byte order. -/
inductive LportResult where
  | privError
  | eaddrnotavail
  | ok (port : ℕ)
deriving DecidableEq, Repr

/-- The loop over the ports of a table entry: the cursor and the port chosen.
SOURCE: freebsd/netinet/in_pcb.c:992-1098 -/
def tableLoop (used : ℕ → Bool) (rss_first rss_last : ℕ) (dport : ℕ → ℕ) : ℕ → ℕ → ℕ × Option ℕ
  | 0, cursor => (cursor, none)
  | rounds + 1, cursor =>
    let cursor := (cursor + 1) % 65536
    let cursor := if cursor < rss_first ∨ rss_last < cursor then rss_first else cursor
    let port := Function.update dport 0 cursor cursor
    if used port then tableLoop used rss_first rss_last dport rounds cursor else (cursor, some port)

/-- The scan of the range; `accept` is the test made on a port that is not in use.
SOURCE: freebsd/netinet/in_pcb.c:992-1098 -/
def scanLoop (used accept : ℕ → Bool) (first last : ℕ) : ℕ → ℕ → ℕ × Option ℕ
  | 0, lastport => (lastport, none)
  | rounds + 1, lastport =>
    let lastport := (lastport + 1) % 65536
    let lastport := if lastport < first ∨ last < lastport then first else lastport
    if used lastport = false ∧ accept lastport then (lastport, some lastport)
    else scanLoop used accept first last rounds lastport

/-- The eight attempts with `ff_rss_adjust_sport`.
SOURCE: freebsd/netinet/in_pcb.c:961-975 -/
def fastLoop (sys : RssSys) (c : LportCall) (port_id : ℕ) : ℕ → Option ℕ
  | 0 => none
  | n + 1 =>
    match ffRssAdjustSport sys port_id c.faddr c.laddr c.fport c.first c.last
        (c.rand (2 * n)) (c.rand (2 * n + 1)) with
    | none => none
    | some port => if c.used port then fastLoop sys c port_id n else some port

/-- The once-only call of `ff_rss_tbl_set_portrange`.
SOURCE: freebsd/netinet/in_pcb.c:917-920 -/
def initTable (sys : RssSys) (s : LportState) (first last : ℕ) : LportState :=
  if s.rss_tbl_init = .notInit then
    let r := ffRssTblSetPortrange sys.conf sys.enable s.tbl first last
    { s with tbl := r.1, rss_tbl_init := if r.2 < 0 then .failed else .successed }
  else s

/-- The table path, for an entry that was found.  The table is consulted only after
`ff_rss_tbl_set_portrange` has returned 0, and then `rss_first <= rss_last` in every entry.
SOURCE: freebsd/netinet/in_pcb.c:930-936, freebsd/netinet/in_pcb.c:992-1102 -/
def tablePath (s : LportState) (c : LportCall) (r : PortRange) : LportState × LportResult :=
  let e := (s.tbl r.rss_portrange.1).dip_tbl r.rss_portrange.2
  let count := r.rss_last - r.rss_first + 1
  let cursor := if c.dorandom then (r.rss_first + c.rand 16 % count) % 65536 else e.dport 0
  let (cursor, port) := tableLoop c.used r.rss_first r.rss_last e.dport (count + 1) cursor
  let e' := { e with dport := Function.update e.dport 0 cursor }
  let s := { s with tbl := setDip s.tbl r.rss_portrange.1 r.rss_portrange.2 e' }
  let s := s.setLastport c.flag (e'.dport cursor)
  match port with
  | some port => (s, .ok port)
  | none => (s, .eaddrnotavail)

/-- The scan, on the interface `ifp`.
SOURCE: freebsd/netinet/in_pcb.c:980-984, freebsd/netinet/in_pcb.c:992-1102 -/
def scanPath (sys : RssSys) (s : LportState) (c : LportCall) (ifp : Ifp) :
    LportState × LportResult :=
  let start := if c.dorandom then c.first + c.rand 17 % (c.last - c.first) else s.lastport c.flag
  let accept (p : ℕ) := match ifp with
    | .loopback => true
    | .veth port_id =>
      ffRssCheck sys.conf port_id c.faddr c.laddr c.fport (htons (UInt16.ofNat p))
  let (lastport, port) := scanLoop c.used accept c.first c.last (c.last - c.first + 1) start
  let s := s.setLastport c.flag lastport
  match port with
  | some port => (s, .ok port)
  | none => (s, .eaddrnotavail)

/-- What follows when the table has no entry.
SOURCE: freebsd/netinet/in_pcb.c:939-1102 -/
def noTablePath (sys : RssSys) (s : LportState) (c : LportCall) : LportState × LportResult :=
  match c.ifp with
  | none => (s, .eaddrnotavail)
  | some .loopback => scanPath sys s c .loopback
  | some (.veth port_id) =>
    match fastLoop sys c port_id 8 with
    | some port => (s.setLastport c.flag port, .ok port)
    | none => scanPath sys s c (.veth port_id)

/-- `in_pcb_lport_dest` with `INPLOOKUP_LPORT_RSS_CHECK`.
SOURCE: freebsd/netinet/in_pcb.c:765-1103 -/
def inPcbLportDest (sys : RssSys) (s : LportState) (c : LportCall) : LportState × LportResult :=
  if c.admitted then
    let s := initTable sys s c.first c.last
    if s.rss_tbl_init = .successed then
      match ffRssTblGetPortrange sys.conf sys.enable s.tbl c.faddr c.laddr c.fport with
      | .ok r => tablePath s c r
      | .error ret =>
        noTablePath sys (if ret ≠ -ENOENT then { s with rss_tbl_init := .failed } else s) c
    else noTablePath sys s c
  else (s, .privError)

/-- The state after a sequence of calls. -/
def runLport (sys : RssSys) (s : LportState) (calls : List LportCall) : LportState :=
  calls.foldl (fun s c => (inPcbLportDest sys s c).1) s

/-!
## Solving for a port, IPv6

`ff_rss_adjust_sport6` (`lib/ff_dpdk_if.c`) and the attempts that `in_pcb_lport_dest`
(`freebsd/netinet/in_pcb.c`) makes with it for an IPv6 socket.

In a `RssSys`, `thash` is here the context `rss_thash6_ctx` of a port that is ready, whose helper
covers the 16 bits at bit 256 of the tuple.
-/

/-- The tuple, with the port that is solved for in bytes 32 and 33.
SOURCE: lib/ff_dpdk_if.c:3726-3730 -/
def tuple6 (saddr6 daddr6 : In6Addr) (sport dport : UInt16) : List UInt8 :=
  List.ofFn saddr6 ++ List.ofFn daddr6 ++ bytes16 sport ++ bytes16 dport

/-- `bcopy(&tuple[32], &sport, sizeof(sport))`. -/
def tupleSport6 (tuple : List UInt8) : UInt16 :=
  UInt16.ofNat ((tuple.getD 32 0).toNat + 256 * (tuple.getD 33 0).toNat)

/-- The loop of `ff_rss_adjust_sport6`.  The port of a failed check is the next seed.
SOURCE: lib/ff_dpdk_if.c:3721-3746 -/
def adjustLoop6 (sys : RssSys) (ctx : ThashCtx) (port_id : ℕ) (saddr6 daddr6 : In6Addr)
    (dport : UInt16) : ℕ → UInt16 → ℕ → Option UInt16
  | 0, _, _ => none
  | tries + 1, sport, desired =>
    let reta_size := sys.conf.rss_reta_size port_id
    let nb_queues := sys.conf.nb_queue_list port_id
    let desired := if reta_size ≤ desired then sys.conf.tx_queue_id port_id else desired
    match sys.adjust ctx (tuple6 saddr6 daddr6 sport dport) (desired &&& (reta_size - 1)) with
    | some tuple =>
      let sport := tupleSport6 tuple
      if sys.recheck = false ∨ ffRssCheck6 sys.conf port_id saddr6 daddr6 sport dport then
        some sport
      else adjustLoop6 sys ctx port_id saddr6 daddr6 dport tries sport (desired + nb_queues)
    | none => adjustLoop6 sys ctx port_id saddr6 daddr6 dport tries sport (desired + nb_queues)

/-- `ff_rss_adjust_sport6`; `r` is the random number it draws.
SOURCE: lib/ff_dpdk_if.c:3687-3749 -/
def ffRssAdjustSport6 (sys : RssSys) (port_id : ℕ) (saddr6 daddr6 : In6Addr) (dport : UInt16)
    (r : ℕ) : Option UInt16 :=
  match sys.thash port_id with
  | none => none
  | some ctx =>
    let nb_queues := sys.conf.nb_queue_list port_id
    let reta_size := sys.conf.rss_reta_size port_id
    let queueid := sys.conf.tx_queue_id port_id
    if sys.thash_adjust = false then none
    else if nb_queues ≤ 1 then none
    else
      let tries := (reta_size + nb_queues - 1) / nb_queues
      let desired := queueid + (r % tries) * nb_queues
      let desired := if reta_size ≤ desired then queueid else desired
      adjustLoop6 sys ctx port_id saddr6 daddr6 dport tries 0 desired

/-- The eight attempts: the local port in network byte order, `htons` of the solved one, that is
bound where `in6_pcblookup_local` finds it unused.
SOURCE: freebsd/netinet/in_pcb.c:898-911 -/
def fastLoop6 (sys : RssSys) (port_id : ℕ) (faddr6 laddr6 : In6Addr) (fport : UInt16)
    (used : UInt16 → Bool) (rand : ℕ → ℕ) : ℕ → Option UInt16
  | 0 => none
  | n + 1 =>
    match ffRssAdjustSport6 sys port_id faddr6 laddr6 fport (rand n) with
    | none => none
    | some rss_sel =>
      let lport := htons rss_sel
      if used lport then fastLoop6 sys port_id faddr6 laddr6 fport used rand n else some lport

end FStack.Model
