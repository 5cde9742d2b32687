import FStack.Model.RssKey

/-!
# The RSS of all ports

`init_port_start` (`lib/ff_dpdk_if.c`) goes over the configured ports and, for a bonded one, over
its slaves first.  For each device it chooses the globals `rsskey` and `rsskey_len` anew, may
rewrite the key, and gives it to the device; the redirection table is filled in groups of 64.
The primary process programs the devices, and a secondary process only goes through the choices.

A device hashes with the key it was given, and hash `h` goes to the queue in entry `h` modulo the
table's size.
-/

set_option autoImplicit false

namespace FStack.Model

/-- What `rte_eth_dev_info_get` says of a device, and what the calls of `ff_rss_thash_build_key`
for it answer in the primary and in a secondary process. -/
structure RssDev where
  flow_type_rss_offloads : Bool
  hash_key_size : ℕ
  reta_size : UInt16
  calls : BuildCalls
  secondary_calls : BuildCalls

/-- A configured port: its device, and those of `slave_portid_list` if it is bonded. -/
structure RssPort where
  slaves : List RssDev
  dev : RssDev
  nb_queues : ℕ

/-- `thash_adjust` is true when there is no `rss_check` section. -/
structure RssSettings where
  symmetric_rss : Bool
  thash_adjust : Bool

/-- The globals of a process before the first port.
SOURCE: lib/ff_dpdk_if.c:131-132, lib/ff_dpdk_if.c:3007 -/
def KeyState.initial : KeyState := ⟨some (keyBytes defaultRsskey40bytes), 40, false⟩

/-- The choice of the key for one device.
SOURCE: lib/ff_dpdk_if.c:733-752 -/
def KeyState.choose (st : KeyState) (symmetric_rss : Bool) (hash_key_size : ℕ) : KeyState :=
  let st : KeyState := match hash_key_size with
    | 40 => { st with rsskey := some (keyBytes defaultRsskey40bytes), rsskey_len := 40 }
    | 52 => { st with rsskey := some (keyBytes defaultRsskey52bytes), rsskey_len := 52 }
    | _ => { st with rsskey := none, rsskey_len := 0 }
  if symmetric_rss ∧ hash_key_size ≠ 0 then
    { st with rsskey := some (keyBytes symmetricRsskey) } else st

/-- The RSS block of `init_port_start` for one device: the globals afterwards, and the contexts of
the device.
SOURCE: lib/ff_dpdk_if.c:728-758 -/
def initDev (cfg : RssSettings) (is_primary : Bool) (st : KeyState) (contexts : ThashList)
    (nb_queues : ℕ) (dev : RssDev) : KeyState × ThashList :=
  if dev.flow_type_rss_offloads then
    let st := st.choose cfg.symmetric_rss dev.hash_key_size
    if 1 < nb_queues ∧ cfg.thash_adjust then
      let s : BuildState := ⟨st, none, false, none, false, contexts⟩
      let s := s.ffRssThashBuildKey is_primary cfg.thash_adjust dev.reta_size
        (if is_primary then dev.calls else dev.secondary_calls)
      (s.toKeyState, s.contexts)
    else (st, contexts)
  else (st, contexts)

/-- The devices in the order in which they are initialised, each with the number of queues of its
configured port. -/
def RssPort.devs (port : RssPort) : List (ℕ × RssDev) :=
  port.slaves.map (fun dev => (port.nb_queues, dev)) ++ [(port.nb_queues, port.dev)]

/-- The globals of the primary and of a secondary process. -/
structure RssProcs where
  primary : KeyState
  secondary : KeyState

/-- Both processes initialise one device.  The secondary finds the contexts that the primary has
left. -/
def RssProcs.initDev (cfg : RssSettings) (s : RssProcs) (x : ℕ × RssDev) : RssProcs :=
  let p := FStack.Model.initDev cfg true s.primary ⟨none, none⟩ x.1 x.2
  ⟨p.1, (FStack.Model.initDev cfg false s.secondary p.2 x.1 x.2).1⟩

/-- `init_port_start`, over the devices in their order.
SOURCE: lib/ff_dpdk_if.c:658-771 -/
def initPortStart (cfg : RssSettings) (devs : List (ℕ × RssDev)) : RssProcs :=
  devs.foldl (RssProcs.initDev cfg) ⟨KeyState.initial, KeyState.initial⟩

def RTE_ETH_RETA_GROUP_SIZE : ℕ := 64

/-- The inner loop of `set_rss_table`, for `n` more entries of a group.
SOURCE: lib/ff_dpdk_if.c:636-638 -/
def fillGroup (nb_queues : ℕ) : ℕ → ℕ → List ℕ
  | 0, _ => []
  | n + 1, hash => hash % nb_queues :: fillGroup nb_queues n (hash + 1)

/-- The outer loop of `set_rss_table`, for `n` more groups. -/
def fillGroups (nb_queues : ℕ) : ℕ → ℕ → List (List ℕ)
  | 0, _ => []
  | n + 1, hash =>
    fillGroup nb_queues RTE_ETH_RETA_GROUP_SIZE hash ::
      fillGroups nb_queues n (hash + RTE_ETH_RETA_GROUP_SIZE)

/-- `set_rss_table`: the groups that `rte_eth_dev_rss_reta_update` is given.
SOURCE: lib/ff_dpdk_if.c:623-646 -/
def setRssTable (reta_size nb_queues : ℕ) : List (List ℕ) :=
  if reta_size = 0 then []
  else fillGroups nb_queues (max 1 (reta_size / RTE_ETH_RETA_GROUP_SIZE)) 0

/-- Entry `k` of a table in groups of 64. -/
def retaEntry (reta_conf : List (List ℕ)) (k : ℕ) : ℕ :=
  (reta_conf.getD (k / RTE_ETH_RETA_GROUP_SIZE) []).getD (k % RTE_ETH_RETA_GROUP_SIZE) 0

/-- The queue to which a device delivers data, when `st` is what the primary gave it. -/
def nicQueue (st : KeyState) (nb_queues : ℕ) (reta_size : UInt16) (data : List UInt8) : Option ℕ :=
  st.rsskey.map fun key =>
    retaEntry (setRssTable reta_size.toNat nb_queues)
      ((toeplitzHash st.rsskey_len key data).toNat % reta_size.toNat)

/-- `ff_rss_check` with the globals of a process, on the port of `dev`; `none` when `rsskey` is
`NULL`. -/
def rssCheck (st : KeyState) (nb_queues : ℕ) (reta_size : UInt16) (queueid : ℕ)
    (saddr daddr : UInt32) (sport dport : UInt16) : Option Bool :=
  st.rsskey.map fun key =>
    ffRssCheck
      { rsskey_len := st.rsskey_len
        rsskey := key
        nb_queue_list := fun _ => nb_queues
        rss_reta_size := fun _ => reta_size.toNat
        tx_queue_id := fun _ => queueid } 0 saddr daddr sport dport

end FStack.Model
