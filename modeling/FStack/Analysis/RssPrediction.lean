import FStack.Analysis.KeyPublication
import FStack.Model.RssPorts
import Mathlib.Data.List.Induction

/-!
# The predicted queue on every port

The table that `set_rss_table` fills sends hash `h` to the queue that `ff_rss_check` computes from
it (`retaEntry_setRssTable`), so prediction and delivery agree as long as both hash with one key.
The globals `rsskey` and `rsskey_len` are chosen anew for each device, while a key is rewritten
only once in the life of a process: after the last device they need not be what an earlier port
was programmed with.  `rssPredicted` says from which ports on the agreement holds.
-/

set_option autoImplicit false

namespace FStack.Analysis

open FStack.Model

variable {reta_size : UInt16} {m nb_queues : ℕ} {st : KeyState} {key : ℕ → UInt8} {x : ℕ × RssDev}
  {pre : List (ℕ × RssDev)}
variable {nic st' : KeyState} {post : List (ℕ × RssDev)} {n n' : ℕ} {is_primary : Bool}

/-! ## The table -/

theorem fillGroup_getD (nb_queues n hash i : ℕ) (hi : i < n) :
    (fillGroup nb_queues n hash).getD i 0 = (hash + i) % nb_queues := by
  induction n generalizing hash i with
  | zero => omega
  | succ n ih =>
    rw [fillGroup]
    cases i with
    | zero => rfl
    | succ i =>
      rw [List.getD_cons_succ, ih (hash + 1) i (by omega),
        show hash + 1 + i = hash + (i + 1) by omega]

theorem fillGroups_getD (nb_queues n hash i : ℕ) (hi : i < n) :
    (fillGroups nb_queues n hash).getD i [] =
      fillGroup nb_queues RTE_ETH_RETA_GROUP_SIZE (hash + RTE_ETH_RETA_GROUP_SIZE * i) := by
  induction n generalizing hash i with
  | zero => omega
  | succ n ih =>
    rw [fillGroups]
    cases i with
    | zero => rfl
    | succ i =>
      rw [List.getD_cons_succ, ih _ i (by omega), RTE_ETH_RETA_GROUP_SIZE,
        show hash + 64 + 64 * i = hash + 64 * (i + 1) by omega]

/-- The table in groups of 64 is the queues in turn, from the first entry to the last.
SOURCE: lib/ff_dpdk_if.c:623-646 -/
theorem retaEntry_setRssTable {reta_size : ℕ} (hreta : reta_size = 2 ^ m) (nb_queues k : ℕ) (hk : k < reta_size) :
    retaEntry (setRssTable reta_size nb_queues) k = k % nb_queues := by
  have hgroup : k / 64 < max 1 (reta_size / 64) := by
    by_cases hm : m < 6
    · have hpow : 2 ^ m ≤ 2 ^ 5 := Nat.pow_le_pow_right (by omega) (by omega)
      omega
    · -- a table of at least 64 entries is made of whole groups
      have hpow : 2 ^ m = 64 * 2 ^ (m - 6) := by
        rw [show (64 : ℕ) = 2 ^ 6 by decide, ← Nat.pow_add, show 6 + (m - 6) = m by omega]
      omega
  rw [retaEntry, setRssTable, if_neg (by omega), RTE_ETH_RETA_GROUP_SIZE]
  rw [fillGroups_getD _ _ _ _ hgroup, RTE_ETH_RETA_GROUP_SIZE, fillGroup_getD _ _ _ _ (by omega)]
  rw [show 0 + 64 * (k / 64) + k % 64 = k by omega]

/-- The mask of `ff_rss_check` takes the remainder modulo the table's size. -/
theorem hash_mask_eq_mod (hreta : reta_size.toNat = 2 ^ m) (hash : BitVec 32) :
    (hash &&& (BitVec.ofNat 32 reta_size.toNat - 1)).toNat = hash.toNat % reta_size.toNat := by
  have hlt := reta_size.toNat_lt
  have hpos : 0 < 2 ^ m := Nat.two_pow_pos m
  have hmask : (BitVec.ofNat 32 reta_size.toNat - 1).toNat = 2 ^ m - 1 := by
    have hone : (1 : BitVec 32).toNat = 1 := rfl
    rw [BitVec.toNat_sub, BitVec.toNat_ofNat, hone]
    omega
  rw [BitVec.toNat_and, hmask, hreta, Nat.and_two_pow_sub_one_eq_mod]

/-! ## Prediction and delivery -/

/-- Two processes hash every IPv4 flow alike. -/
def SameHash (st st' : KeyState) : Prop :=
  ∃ key key', st.rsskey = some key ∧ st'.rsskey = some key' ∧
    ∀ data : List UInt8, data.length = 12 →
      toeplitzHash st.rsskey_len key data = toeplitzHash st'.rsskey_len key' data

/-- With the globals `st`, `ff_rss_check` is 1 for exactly the flows that a device programmed with
`nic` delivers to the queue. -/
def RssAgrees (st nic : KeyState) (nb_queues : ℕ) (reta_size : UInt16) : Prop :=
  ∀ (queueid : ℕ) (saddr daddr : UInt32) (sport dport : UInt16),
    rssCheck st nb_queues reta_size queueid saddr daddr sport dport =
      some (decide (nicQueue nic nb_queues reta_size
        (bytes32 saddr ++ bytes32 daddr ++ bytes16 sport ++ bytes16 dport) = some queueid))

theorem nicQueue_some (hkey : st.rsskey = some key) (nb_queues : ℕ) (hreta : reta_size.toNat = 2 ^ m)
    (data : List UInt8) :
    nicQueue st nb_queues reta_size data =
      some ((toeplitzHash st.rsskey_len key data).toNat % reta_size.toNat % nb_queues) := by
  have hpos : 0 < 2 ^ m := Nat.two_pow_pos m
  rw [nicQueue, hkey, Option.map_some,
    retaEntry_setRssTable hreta _ _ (Nat.mod_lt _ (by omega))]

theorem rssCheck_some (hkey : st.rsskey = some key) (hnb : 1 < nb_queues) (hreta : reta_size.toNat = 2 ^ m)
    (queueid : ℕ) (saddr daddr : UInt32) (sport dport : UInt16) :
    rssCheck st nb_queues reta_size queueid saddr daddr sport dport =
      some ((toeplitzHash st.rsskey_len key
        (bytes32 saddr ++ bytes32 daddr ++ bytes16 sport ++ bytes16 dport)).toNat %
          reta_size.toNat % nb_queues == queueid) := by
  rw [rssCheck, hkey, Option.map_some, ffRssCheck, if_neg (by dsimp only; omega), landsOnQueue]
  dsimp only
  rw [hash_mask_eq_mod hreta]

/-- The table keeps what the hashes have in common. -/
theorem RssAgrees.of_sameHash (hnb : 1 < nb_queues) (hreta : reta_size.toNat = 2 ^ m) (h : SameHash st nic) :
    RssAgrees st nic nb_queues reta_size := by
  obtain ⟨key, key', hkey, hkey', hhash⟩ := h
  intro queueid saddr daddr sport dport
  rw [rssCheck_some hkey hnb hreta, nicQueue_some hkey' _ hreta, hhash _ rfl]
  simp only [Option.some.injEq, beq_eq_decide]

/-! ## One device -/

section Devices

variable {cfg : RssSettings}

/-- A device that does RSS with a key of a supported length. -/
def Supported (dev : RssDev) : Prop :=
  dev.flow_type_rss_offloads = true ∧ (dev.hash_key_size = 40 ∨ dev.hash_key_size = 52)

instance (dev : RssDev) : Decidable (Supported dev) := inferInstanceAs (Decidable (_ ∧ _))

/-- The key that is chosen for a supported device. -/
def baseKey (cfg : RssSettings) (hash_key_size : ℕ) : ℕ → UInt8 :=
  if cfg.symmetric_rss then keyBytes symmetricRsskey
  else if hash_key_size = 40 then keyBytes defaultRsskey40bytes else keyBytes defaultRsskey52bytes

theorem choose_supported (st : KeyState) {hash_key_size : ℕ}
    (h : hash_key_size = 40 ∨ hash_key_size = 52) :
    st.choose cfg.symmetric_rss hash_key_size =
      ⟨some (baseKey cfg hash_key_size), hash_key_size, st.ff_rss_key_built⟩ := by
  rw [baseKey]
  obtain rfl | rfl := h <;> cases cfg.symmetric_rss <;> rfl

theorem choose_unsupported (st : KeyState) {hash_key_size : ℕ}
    (h : ¬ (hash_key_size = 40 ∨ hash_key_size = 52)) :
    (st.choose cfg.symmetric_rss hash_key_size).rsskey_len = 0 ∧
      (st.choose cfg.symmetric_rss hash_key_size).ff_rss_key_built = st.ff_rss_key_built := by
  unfold KeyState.choose
  split
  · exact absurd (Or.inl rfl) h
  · exact absurd (Or.inr rfl) h
  · dsimp only
    split <;> exact ⟨rfl, rfl⟩

/-- With a key published before, or no key length, the call does nothing. -/
theorem ffRssThashBuildKey_idle (st : KeyState) (is_primary thash_adjust : Bool)
    (reta_size : UInt16) (c : BuildCalls) (contexts : ThashList)
    (h : st.rsskey_len = 0 ∨ st.ff_rss_key_built = true) :
    BuildState.ffRssThashBuildKey ⟨st, none, false, none, false, contexts⟩ is_primary thash_adjust
      reta_size c = ⟨st, none, false, none, false, contexts⟩ := by
  rw [BuildState.ffRssThashBuildKey]
  dsimp only
  split
  · rfl
  split
  · rfl
  split
  · rfl
  rename_i hlen hbuilt
  obtain h | h := h
  · exact absurd (Or.inr h) hlen
  · exact absurd (Or.inr h) hbuilt

/-- The key of the context for IPv4 that the primary makes for a device, if it has not published a
key before. -/
def openedKey (cfg : RssSettings) (x : ℕ × RssDev) : Option (ℕ → UInt8) :=
  if Supported x.2 ∧ 1 < x.1 ∧ BuildsKey cfg.thash_adjust x.2.reta_size then
    madeKey x.2.calls.v4 (baseKey cfg x.2.hash_key_size)
  else none

/-- The key of the context for IPv6 besides. -/
def openedKey6 (cfg : RssSettings) (x : ℕ × RssDev) : Option (ℕ → UInt8) :=
  (openedKey cfg x).bind (madeKey x.2.calls.v6)

/-- A device without RSS, or with a key of another length, publishes nothing. -/
theorem initDev_unsupported (is_primary : Bool) (st : KeyState) (contexts : ThashList) (h : ¬ Supported x.2) :
    (initDev cfg is_primary st contexts x.1 x.2).1.ff_rss_key_built = st.ff_rss_key_built ∧
      (initDev cfg is_primary st contexts x.1 x.2).2 = contexts := by
  rw [initDev]
  by_cases hrss : x.2.flow_type_rss_offloads = true
  · have hsize : ¬ (x.2.hash_key_size = 40 ∨ x.2.hash_key_size = 52) := fun hs => h ⟨hrss, hs⟩
    obtain ⟨hlen, hbuilt⟩ := @choose_unsupported cfg st _ hsize
    rw [if_pos hrss]
    dsimp only
    rw [ffRssThashBuildKey_idle _ _ _ _ _ _ (Or.inl hlen)]
    split <;> exact ⟨hbuilt, rfl⟩
  · rw [if_neg hrss]
    exact ⟨rfl, rfl⟩

/-- After a published key, a supported device gets the key that was chosen for it. -/
theorem initDev_built (is_primary : Bool) (contexts : ThashList) (h : Supported x.2)
    (hbuilt : st.ff_rss_key_built = true) :
    initDev cfg is_primary st contexts x.1 x.2 =
      (⟨some (baseKey cfg x.2.hash_key_size), x.2.hash_key_size, true⟩, contexts) := by
  rw [initDev, if_pos h.1]
  dsimp only
  rw [choose_supported st h.2, hbuilt, ffRssThashBuildKey_idle _ _ _ _ _ _ (Or.inr rfl)]
  split <;> rfl

/-- Before that, a supported device gets what the call makes of the chosen key. -/
theorem initDev_fresh (is_primary : Bool) (contexts : ThashList) (h : Supported x.2)
    (hbuilt : st.ff_rss_key_built = false) (hopen : 1 < x.1 ∧ BuildsKey cfg.thash_adjust x.2.reta_size) :
    initDev cfg is_primary st contexts x.1 x.2 =
      let s := (BuildState.start (baseKey cfg x.2.hash_key_size) x.2.hash_key_size
        contexts).buildContexts is_primary
          (if is_primary then x.2.calls else x.2.secondary_calls) (baseKey cfg x.2.hash_key_size)
      (s.toKeyState, s.contexts) := by
  have hstart : (⟨⟨some (baseKey cfg x.2.hash_key_size), x.2.hash_key_size, false⟩, none, false,
      none, false, contexts⟩ : BuildState) =
      BuildState.start (baseKey cfg x.2.hash_key_size) x.2.hash_key_size contexts := rfl
  rw [initDev, if_pos h.1]
  dsimp only
  rw [choose_supported st h.2, hbuilt, hstart, if_pos ⟨hopen.1, hopen.2.1⟩,
    BuildState.ffRssThashBuildKey_start _ _ _ h.2 hopen.2]

/-- With one queue, or when the call is switched off, it gets the chosen key. -/
theorem initDev_chosen (is_primary : Bool) (contexts : ThashList) (h : Supported x.2)
    (hbuilt : st.ff_rss_key_built = false) (hopen : ¬ (1 < x.1 ∧ BuildsKey cfg.thash_adjust x.2.reta_size)) :
    initDev cfg is_primary st contexts x.1 x.2 =
      (⟨some (baseKey cfg x.2.hash_key_size), x.2.hash_key_size, false⟩, contexts) := by
  rw [initDev, if_pos h.1]
  dsimp only
  rw [choose_supported st h.2, hbuilt]
  split
  · rename_i hcall
    have hskip : ¬ BuildsKey cfg.thash_adjust x.2.reta_size := fun hb => hopen ⟨hcall.1, hb⟩
    have hstart : (⟨⟨some (baseKey cfg x.2.hash_key_size), x.2.hash_key_size, false⟩, none, false,
        none, false, contexts⟩ : BuildState) =
        BuildState.start (baseKey cfg x.2.hash_key_size) x.2.hash_key_size contexts := rfl
    rw [hstart, BuildState.ffRssThashBuildKey_skip _ _ _ hskip]
    rfl
  · rfl

/-- What the primary makes of a supported device before it has published a key.
SOURCE: lib/ff_dpdk_if.c:728-758 -/
theorem initDev_primary (h : Supported x.2) (hbuilt : st.ff_rss_key_built = false) :
    initDev cfg true st ⟨none, none⟩ x.1 x.2 =
      (⟨some (pubKey x.2.calls.key_mem (openedKey cfg x) (openedKey6 cfg x)
          (baseKey cfg x.2.hash_key_size)), x.2.hash_key_size,
        (openedKey cfg x).isSome && x.2.calls.key_mem⟩,
        ⟨openedKey cfg x, openedKey6 cfg x⟩) := by
  by_cases hopen : 1 < x.1 ∧ BuildsKey cfg.thash_adjust x.2.reta_size
  · have hopened : openedKey cfg x = madeKey x.2.calls.v4 (baseKey cfg x.2.hash_key_size) :=
      if_pos ⟨h, hopen⟩
    have hctx := (@primary_outcome (baseKey cfg x.2.hash_key_size) x.2.hash_key_size
      cfg.thash_adjust x.2.reta_size x.2.calls h.2 hopen.2).2.2
    rw [BuildState.primary, BuildState.ffRssThashBuildKey_start _ _ _ h.2 hopen.2] at hctx
    rw [initDev_fresh true _ h hbuilt hopen, if_pos rfl, openedKey6, hopened]
    dsimp only
    rw [hctx, BuildState.buildContexts_toKeyState]
    simp only [openContext_primary]
    rfl
  · have hopened : openedKey cfg x = none := if_neg fun hc => hopen hc.2
    rw [initDev_chosen true _ h hbuilt hopen, openedKey6, hopened]
    cases x.2.calls.key_mem <;> rfl

/-- What a secondary process makes of it, with the contexts that it finds.
SOURCE: lib/ff_dpdk_if.c:728-758 -/
theorem initDev_secondary {st : KeyState} {contexts : ThashList} {x : ℕ × RssDev}
    (h : Supported x.2) (hbuilt : st.ff_rss_key_built = false)
    (hctx : contexts.v4.isSome = true → 1 < x.1 ∧ BuildsKey cfg.thash_adjust x.2.reta_size) :
    (initDev cfg false st contexts x.1 x.2).1 =
      ⟨some (pubKey x.2.secondary_calls.key_mem (foundKey x.2.secondary_calls.v4 contexts.v4)
          ((foundKey x.2.secondary_calls.v4 contexts.v4).bind fun _ =>
            foundKey x.2.secondary_calls.v6 contexts.v6) (baseKey cfg x.2.hash_key_size)),
        x.2.hash_key_size,
        (foundKey x.2.secondary_calls.v4 contexts.v4).isSome && x.2.secondary_calls.key_mem⟩ := by
  by_cases hopen : 1 < x.1 ∧ BuildsKey cfg.thash_adjust x.2.reta_size
  · rw [initDev_fresh false _ h hbuilt hopen, if_neg (by simp)]
    dsimp only
    rw [BuildState.buildContexts_toKeyState]
    simp only [openContext_secondary]
  · have hnone : contexts.v4 = none := by
      cases hv4 : contexts.v4 with
      | none => rfl
      | some key => exact absurd (hctx (by rw [hv4]; rfl)) hopen
    have hfound : foundKey x.2.secondary_calls.v4 none = none := by
      rw [foundKey]
      split <;> rfl
    rw [initDev_chosen false _ h hbuilt hopen, hnone, hfound]
    cases hmem : x.2.secondary_calls.key_mem <;> rfl

/-! ## Which process publishes where -/

/-- The primary's calls for a device succeed, up to the memory for the key. -/
def PrimaryCan (cfg : RssSettings) (x : ℕ × RssDev) : Prop :=
  (openedKey cfg x).isSome = true ∧ x.2.calls.key_mem = true

/-- A secondary process's calls do, on the context that the primary makes. -/
def SecondaryCan (cfg : RssSettings) (x : ℕ × RssDev) : Prop :=
  (openedKey cfg x).isSome = true ∧ (x.2.secondary_calls.v4.get_helper = true ∧
    x.2.secondary_calls.v4.get_key = true) ∧ x.2.secondary_calls.key_mem = true

/-- The primary publishes a key for the device that comes after `pre`. -/
def PrimaryPublishes (cfg : RssSettings) (pre : List (ℕ × RssDev)) (x : ℕ × RssDev) : Prop :=
  PrimaryCan cfg x ∧ ∀ y ∈ pre, ¬ PrimaryCan cfg y

/-- A secondary process does. -/
def SecondaryPublishes (cfg : RssSettings) (pre : List (ℕ × RssDev)) (x : ℕ × RssDev) : Prop :=
  SecondaryCan cfg x ∧ ∀ y ∈ pre, ¬ PrimaryCan cfg y ∧ ¬ SecondaryCan cfg y

theorem openedKey_unsupported (h : ¬ Supported x.2) : openedKey cfg x = none :=
  if_neg fun hc => h hc.1

theorem openedKey_isSome (h : (openedKey cfg x).isSome = true) :
    1 < x.1 ∧ BuildsKey cfg.thash_adjust x.2.reta_size := by
  by_contra hnot
  rw [openedKey, if_neg fun hc => hnot hc.2] at h
  cases h

theorem foundKey_isSome (c : ThashCalls) (entry : Option (ℕ → UInt8)) :
    (foundKey c entry).isSome = (entry.isSome && (c.get_helper && c.get_key)) := by
  rw [foundKey]
  split
  · rename_i h
    rw [h, Bool.and_true]
  · rename_i h
    rw [Bool.eq_false_iff.mpr h, Bool.and_false]
    rfl

/-- After a device, the primary has published a key if it had one before or can now. -/
theorem initDev_primary_built (s : RssProcs) (x : ℕ × RssDev) :
    (s.initDev cfg x).primary.ff_rss_key_built = true ↔
      s.primary.ff_rss_key_built = true ∨ PrimaryCan cfg x := by
  rw [RssProcs.initDev, PrimaryCan]
  dsimp only
  by_cases h : Supported x.2
  · cases hbuilt : s.primary.ff_rss_key_built with
    | true =>
      rw [initDev_built true _ h hbuilt]
      simp
    | false =>
      rw [initDev_primary h hbuilt]
      simp
  · rw [(initDev_unsupported true s.primary _ h).1, openedKey_unsupported h]
    simp

/-- As long as the primary has not published, a secondary process has if it had before or
can now. -/
theorem initDev_secondary_built {s : RssProcs} (x : ℕ × RssDev)
    (hprimary : s.primary.ff_rss_key_built = false) :
    (s.initDev cfg x).secondary.ff_rss_key_built = true ↔
      s.secondary.ff_rss_key_built = true ∨ SecondaryCan cfg x := by
  rw [RssProcs.initDev, SecondaryCan]
  dsimp only
  by_cases h : Supported x.2
  · cases hbuilt : s.secondary.ff_rss_key_built with
    | true =>
      rw [initDev_built false _ h hbuilt]
      simp
    | false =>
      rw [initDev_primary h hprimary]
      dsimp only
      rw [initDev_secondary h hbuilt openedKey_isSome]
      dsimp only
      rw [foundKey_isSome]
      simp only [Bool.and_eq_true, Bool.false_eq_true, false_or, and_assoc]
  · rw [(initDev_unsupported false s.secondary _ h).1, openedKey_unsupported h]
    simp

theorem initPortStart_concat (pre : List (ℕ × RssDev)) (x : ℕ × RssDev) :
    initPortStart cfg (pre ++ [x]) = (initPortStart cfg pre).initDev cfg x := by
  rw [initPortStart, List.foldl_append]
  rfl

/-- Whether a key has been published after some devices. -/
theorem initPortStart_built (pre : List (ℕ × RssDev)) :
    ((initPortStart cfg pre).primary.ff_rss_key_built = true ↔ ∃ y ∈ pre, PrimaryCan cfg y) ∧
      ((∀ y ∈ pre, ¬ PrimaryCan cfg y) →
        ((initPortStart cfg pre).secondary.ff_rss_key_built = true ↔
          ∃ y ∈ pre, SecondaryCan cfg y)) := by
  induction pre using List.reverseRecOn with
  | nil =>
    refine ⟨?_, fun _ => ?_⟩ <;> simp [initPortStart, KeyState.initial]
  | append_singleton pre x ih =>
    obtain ⟨ihp, ihs⟩ := ih
    rw [initPortStart_concat]
    refine ⟨?_, ?_⟩
    · rw [initDev_primary_built, ihp]
      simp [or_and_right, exists_or]
    · intro hnone
      have hnone' : ∀ y ∈ pre, ¬ PrimaryCan cfg y :=
        fun y hy => hnone y (List.mem_append_left _ hy)
      have hprimary : (initPortStart cfg pre).primary.ff_rss_key_built = false := by
        rw [Bool.eq_false_iff, Ne, ihp]
        rintro ⟨y, hy, hcan⟩
        exact hnone' y hy hcan
      rw [initDev_secondary_built x hprimary, ihs hnone']
      simp [or_and_right, exists_or]

theorem initPortStart_primary_fresh (h : ∀ y ∈ pre, ¬ PrimaryCan cfg y) :
    (initPortStart cfg pre).primary.ff_rss_key_built = false := by
  rw [Bool.eq_false_iff, Ne, (initPortStart_built pre).1]
  rintro ⟨y, hy, hcan⟩
  exact h y hy hcan

/-- The key that the primary gives to a device for which it does not publish one. -/
theorem primary_base (h : Supported x.2) (hpub : ¬ PrimaryPublishes cfg pre x) :
    (initPortStart cfg (pre ++ [x])).primary.rsskey = some (baseKey cfg x.2.hash_key_size) ∧
      (initPortStart cfg (pre ++ [x])).primary.rsskey_len = x.2.hash_key_size := by
  rw [initPortStart_concat, RssProcs.initDev]
  dsimp only
  cases hbuilt : (initPortStart cfg pre).primary.ff_rss_key_built with
  | true =>
    rw [initDev_built true _ h hbuilt]
    exact ⟨rfl, rfl⟩
  | false =>
    rw [initDev_primary h hbuilt]
    refine ⟨?_, rfl⟩
    have hcan : ¬ PrimaryCan cfg x := by
      intro hcan
      refine hpub ⟨hcan, fun y hy hy' => ?_⟩
      rw [Bool.eq_false_iff, Ne, (initPortStart_built pre).1] at hbuilt
      exact hbuilt ⟨y, hy, hy'⟩
    rw [PrimaryCan, not_and, Option.isSome_iff_exists] at hcan
    dsimp only
    rw [openedKey6]
    cases hopen : openedKey cfg x with
    | none => cases x.2.calls.key_mem <;> rfl
    | some key =>
      rw [Bool.eq_false_iff.mpr (hcan ⟨key, hopen⟩)]
      rfl

/-- The key of a secondary process after a device for which it does not publish one. -/
theorem secondary_base (h : Supported x.2) (hpub : ¬ SecondaryPublishes cfg pre x) :
    (initPortStart cfg (pre ++ [x])).secondary.rsskey = some (baseKey cfg x.2.hash_key_size) ∧
      (initPortStart cfg (pre ++ [x])).secondary.rsskey_len = x.2.hash_key_size := by
  rw [initPortStart_concat, RssProcs.initDev]
  dsimp only
  cases hbuilt : (initPortStart cfg pre).secondary.ff_rss_key_built with
  | true =>
    rw [initDev_built false _ h hbuilt]
    exact ⟨rfl, rfl⟩
  | false =>
    have hfound : ∀ c, foundKey c none = none := by
      intro c
      rw [foundKey]
      split <;> rfl
    cases hprimary : (initPortStart cfg pre).primary.ff_rss_key_built with
    | true =>
      -- the primary has made no context for this device
      rw [initDev_built true _ h hprimary, @initDev_secondary cfg _ ⟨none, none⟩ x h hbuilt (by simp)]
      refine ⟨?_, rfl⟩
      dsimp only
      rw [hfound]
      cases x.2.secondary_calls.key_mem <;> rfl
    | false =>
      rw [initDev_primary h hprimary]
      dsimp only
      rw [initDev_secondary h hbuilt openedKey_isSome]
      refine ⟨?_, rfl⟩
      have hpre : ∀ y ∈ pre, ¬ PrimaryCan cfg y := by
        intro y hy hcan
        rw [Bool.eq_false_iff, Ne, (initPortStart_built pre).1] at hprimary
        exact hprimary ⟨y, hy, hcan⟩
      have hcan : ¬ SecondaryCan cfg x := by
        intro hcan
        refine hpub ⟨hcan, fun y hy => ⟨hpre y hy, fun hy' => ?_⟩⟩
        rw [Bool.eq_false_iff, Ne, (initPortStart_built pre).2 hpre] at hbuilt
        exact hbuilt ⟨y, hy, hy'⟩
      dsimp only
      cases hv4 : foundKey x.2.secondary_calls.v4 (openedKey cfg x) with
      | none => cases x.2.secondary_calls.key_mem <;> rfl
      | some key =>
        have hsome := foundKey_isSome x.2.secondary_calls.v4 (openedKey cfg x)
        rw [hv4, Option.isSome_some, eq_comm, Bool.and_eq_true, Bool.and_eq_true] at hsome
        have hmem : x.2.secondary_calls.key_mem = false :=
          Bool.eq_false_iff.mpr fun hmem => hcan ⟨hsome.1, hsome.2, hmem⟩
        rw [hmem]
        rfl

/-- An IPv4 flow reads the first 128 bits of the key. -/
theorem sameHash_front {key' : ℕ → UInt8} (hkey : st.rsskey = some key) (hkey' : st'.rsskey = some key')
    (hlen : st.rsskey_len = st'.rsskey_len) (hfront : ∀ n < 128, keyBit key n = keyBit key' n) : SameHash st st' := by
  refine ⟨key, key', hkey, hkey', fun data hdata => ?_⟩
  rw [hlen]
  apply toeplitzHash_congr (by omega)
  intro n hn
  rw [hashKeyBit, hashKeyBit, hfront n (by omega)]

/-- Where both publish a key, the keys hash alike, if the secondary process gets the
context for IPv6 that the primary has made, or that one has left the front of the key as it is. -/
theorem published_sameHash (h : Supported x.2) (hp : PrimaryPublishes cfg pre x) (hs : SecondaryPublishes cfg pre x)
    (h6 : ∀ key key6, openedKey cfg x = some key → openedKey6 cfg x = some key6 →
      (x.2.secondary_calls.v6.get_helper = true ∧ x.2.secondary_calls.v6.get_key = true) ∨
        ∀ n < 128, keyBit key n = keyBit key6 n) :
    SameHash (initPortStart cfg (pre ++ [x])).secondary (initPortStart cfg (pre ++ [x])).primary := by
  have hprimary := initPortStart_primary_fresh hp.2
  have hbuilt : (initPortStart cfg pre).secondary.ff_rss_key_built = false := by
    rw [Bool.eq_false_iff, Ne, (initPortStart_built pre).2 hp.2]
    rintro ⟨y, hy, hcan⟩
    exact (hs.2 y hy).2 hcan
  rw [initPortStart_concat, RssProcs.initDev, initDev_primary h hprimary]
  dsimp only
  rw [initDev_secondary h hbuilt openedKey_isSome]
  obtain ⟨-, ⟨hhelper, hkey⟩, hmem⟩ := hs.1
  obtain ⟨key, hopen⟩ := Option.isSome_iff_exists.mp hp.1.1
  have hv4 : foundKey x.2.secondary_calls.v4 (some key) = some key := by
    rw [foundKey, hhelper, hkey]
    rfl
  dsimp only
  rw [hopen, hv4, hmem, hp.1.2]
  refine sameHash_front rfl rfl rfl fun n hn => ?_
  rw [Option.bind_some, foundKey]
  cases hopen6 : openedKey6 cfg x with
  | none => split <;> rfl
  | some key6 =>
    split
    · rfl
    · rename_i hlost
      rcases h6 key key6 hopen hopen6 with ⟨hh, hk⟩ | hfront
      · exact absurd (by rw [hh, hk]; rfl) hlost
      · exact hfront n hn

/-! ## Every port -/

/-- Devices without RSS leave the globals of both processes alone. -/
theorem initPortStart_incapable (pre : List (ℕ × RssDev)) (h : ∀ y ∈ post, y.2.flow_type_rss_offloads = false) :
    initPortStart cfg (pre ++ post) = initPortStart cfg pre := by
  induction post using List.reverseRecOn with
  | nil => rw [List.append_nil]
  | append_singleton post y ih =>
    have hy : ¬ y.2.flow_type_rss_offloads = true := by
      rw [h y (by simp)]
      exact nofun
    rw [← List.append_assoc, initPortStart_concat, ih (fun z hz => h z (by simp [hz])),
      RssProcs.initDev, initDev, initDev, if_neg hy, if_neg hy]

/-- Two chosen keys of one kind hash an IPv4 flow alike: of the symmetric key it reads
the same bytes for both lengths. -/
theorem sameHash_base (hn : n = 40 ∨ n = 52) (hn' : n' = 40 ∨ n' = 52) (hkind : cfg.symmetric_rss = true ∨ n = n')
    (hst : st.rsskey = some (baseKey cfg n) ∧ st.rsskey_len = n)
    (hst' : st'.rsskey = some (baseKey cfg n') ∧ st'.rsskey_len = n') : SameHash st st' := by
  refine ⟨_, _, hst.1, hst'.1, ?_⟩
  intro data hdata
  have hkey : baseKey cfg n = baseKey cfg n' := by
    obtain hsym | rfl := hkind
    · rw [baseKey, baseKey, if_pos hsym, if_pos hsym]
    · rfl
  rw [hst.2, hst'.2, hkey]
  apply toeplitzHash_congr (by omega)
  intro i hi
  rw [hashKeyBit, hashKeyBit, decide_eq_true (by omega), decide_eq_true (by omega)]

/-- The process, primary or secondary, publishes a key for the device that comes after `pre`. -/
def ProcPublishes (cfg : RssSettings) (is_primary : Bool) (pre : List (ℕ × RssDev))
    (x : ℕ × RssDev) : Prop :=
  if is_primary then PrimaryPublishes cfg pre x else SecondaryPublishes cfg pre x

/-- The globals of the process. -/
def procKey (s : RssProcs) (is_primary : Bool) : KeyState :=
  if is_primary then s.primary else s.secondary

theorem proc_base (is_primary : Bool) (h : Supported x.2) (hpub : ¬ ProcPublishes cfg is_primary pre x) :
    (procKey (initPortStart cfg (pre ++ [x])) is_primary).rsskey =
        some (baseKey cfg x.2.hash_key_size) ∧
      (procKey (initPortStart cfg (pre ++ [x])) is_primary).rsskey_len =
        x.2.hash_key_size := by
  cases is_primary with
  | true => exact primary_base h hpub
  | false => exact secondary_base h hpub

/-- A process predicts the queues of device `x`, which is initialised between `pre` and `post`: no
device after `x` does RSS, and the process is the primary or publishes for `x` what the primary
does, up to what is behind the first 128 bits; or the last one that does RSS is supported and gets a key of the same kind, and neither is a
rewritten key published for `x` nor does the process publish one for that last device. -/
inductive SharedKey (cfg : RssSettings) (is_primary : Bool) (pre : List (ℕ × RssDev))
    (x : ℕ × RssDev) (post : List (ℕ × RssDev)) : Prop
  | last (hpost : ∀ y ∈ post, y.2.flow_type_rss_offloads = false)
      (hpub : ProcPublishes cfg is_primary pre x ↔ PrimaryPublishes cfg pre x)
      (h6 : is_primary = false → PrimaryPublishes cfg pre x → ∀ key key6,
        openedKey cfg x = some key → openedKey6 cfg x = some key6 →
          (x.2.secondary_calls.v6.get_helper = true ∧ x.2.secondary_calls.v6.get_key = true) ∨
            ∀ n < 128, keyBit key n = keyBit key6 n)
  | later (mid : List (ℕ × RssDev)) (e : ℕ × RssDev) (rest : List (ℕ × RssDev))
      (hpost : post = mid ++ e :: rest) (hrest : ∀ y ∈ rest, y.2.flow_type_rss_offloads = false)
      (he : Supported e.2)
      (hkind : cfg.symmetric_rss = true ∨ e.2.hash_key_size = x.2.hash_key_size)
      (hx : ¬ PrimaryPublishes cfg pre x)
      (hpub : ¬ ProcPublishes cfg is_primary (pre ++ x :: mid) e)

/-- The process ends with a key that hashes like the one the device was given.
SOURCE: lib/ff_dpdk_if.c:729-771 -/
theorem SharedKey.sameHash (hx : Supported x.2) (h : SharedKey cfg is_primary pre x post) :
    SameHash (procKey (initPortStart cfg (pre ++ x :: post)) is_primary)
      (initPortStart cfg (pre ++ [x])).primary := by
  cases h with
  | last hpost hpub h6 =>
    rw [show pre ++ x :: post = (pre ++ [x]) ++ post by simp, initPortStart_incapable _ hpost]
    by_cases hp : PrimaryPublishes cfg pre x
    · cases is_primary with
      | true =>
        rw [procKey, if_pos rfl, initPortStart_concat, RssProcs.initDev,
          initDev_primary hx (initPortStart_primary_fresh hp.2)]
        exact ⟨_, _, rfl, rfl, fun _ _ => rfl⟩
      | false => exact published_sameHash hx hp (hpub.mpr hp) (h6 rfl hp)
    · exact sameHash_base hx.2 hx.2 (Or.inr rfl)
        (proc_base is_primary hx (fun hs => hp (hpub.mp hs))) (primary_base hx hp)
  | later mid e rest hpost hrest he hkind hnot hpub =>
    rw [hpost, show pre ++ x :: (mid ++ e :: rest) = ((pre ++ x :: mid) ++ [e]) ++ rest by simp,
      initPortStart_incapable _ hrest]
    exact sameHash_base he.2 hx.2 hkind (proc_base is_primary he hpub) (primary_base hx hnot)

/-- Every port has several queues, and every table size is a power of two from 2 on. -/
def ValidPort (port : RssPort) : Prop :=
  1 < port.nb_queues ∧ ∀ x ∈ port.devs, ∃ m, 1 ≤ m ∧ x.2.reta_size.toNat = 2 ^ m

/-- The devices that are initialised for a port before its own. -/
def slaveDevs (port : RssPort) : List (ℕ × RssDev) :=
  port.slaves.map fun dev => (port.nb_queues, dev)

/-- What the process computes with its globals after `init_port_start` agrees, on every configured
port with a supported key, with what the port's device does with the key it was given. -/
def RssPredicted (cfg : RssSettings) (is_primary : Bool) (ports : List RssPort) : Prop :=
  ∀ before port after, ports = before ++ port :: after → Supported port.dev →
    RssAgrees (procKey (initPortStart cfg (ports.flatMap RssPort.devs)) is_primary)
      (initPortStart cfg ((before ++ [port]).flatMap RssPort.devs)).primary
      port.nb_queues port.dev.reta_size

/-- A process predicts the queues of all ports whose key is shared with the last one.
SOURCE: lib/ff_dpdk_if.c:658-771, lib/ff_dpdk_if.c:2940-2976 -/
theorem rssPredicted (cfg : RssSettings) (is_primary : Bool) {ports : List RssPort}
    (hports : ∀ port ∈ ports, ValidPort port)
    (hshared : ∀ before port after, ports = before ++ port :: after → Supported port.dev →
      SharedKey cfg is_primary (before.flatMap RssPort.devs ++ slaveDevs port)
        (port.nb_queues, port.dev) (after.flatMap RssPort.devs)) :
    RssPredicted cfg is_primary ports := by
  rintro before port after rfl hsup
  obtain ⟨hnb, hreta⟩ := hports port (by simp)
  obtain ⟨m, -, hm⟩ := hreta (port.nb_queues, port.dev) (by simp [RssPort.devs])
  have hall : (before ++ port :: after).flatMap RssPort.devs =
      (before.flatMap RssPort.devs ++ slaveDevs port) ++
        (port.nb_queues, port.dev) :: after.flatMap RssPort.devs := by
    simp [RssPort.devs, slaveDevs]
  have hupto : (before ++ [port]).flatMap RssPort.devs =
      (before.flatMap RssPort.devs ++ slaveDevs port) ++ [(port.nb_queues, port.dev)] := by
    simp [RssPort.devs, slaveDevs]
  rw [hall, hupto]
  exact RssAgrees.of_sameHash hnb hm
    (SharedKey.sameHash (x := (port.nb_queues, port.dev)) hsup (hshared before port after rfl hsup))

/-- Where no key can be rewritten and all keys are of one kind, the key is shared. -/
theorem sharedKey_of_chosen (is_primary : Bool) (pre : List (ℕ × RssDev)) (x : ℕ × RssDev)
    (post : List (ℕ × RssDev)) (hnone : ∀ y, openedKey cfg y = none)
    (hpost : ∀ y ∈ post, Supported y.2 ∧ y.2.hash_key_size = x.2.hash_key_size) :
    SharedKey cfg is_primary pre x post := by
  have hprimary : ∀ pre y, ¬ PrimaryPublishes cfg pre y := by
    rintro pre y ⟨⟨hopen, -⟩, -⟩
    rw [hnone] at hopen
    cases hopen
  have hproc : ∀ pre y, ¬ ProcPublishes cfg is_primary pre y := by
    intro pre y hpub
    cases is_primary with
    | true => exact hprimary pre y hpub
    | false =>
      obtain ⟨⟨hopen, -⟩, -⟩ := hpub
      rw [hnone] at hopen
      cases hopen
  cases post using List.reverseRecOn with
  | nil =>
    exact .last (by simp) (iff_of_false (hproc pre x) (hprimary pre x))
      (fun _ hpub => absurd hpub (hprimary pre x))
  | append_singleton mid e =>
    obtain ⟨hsup, hsize⟩ := hpost e (by simp)
    exact .later mid e [] rfl (by simp) hsup (Or.inr hsize) (hprimary pre x) (hproc _ e)

/-! ## Keys that are not shared -/

/-- On one flow the two keys of the code give hashes that differ in every table, whatever
its size, and for every number of queues. -/
theorem default_keys_differ (hn : n = 40 ∧ n' = 52 ∨ n = 52 ∧ n' = 40) (hsym : cfg.symmetric_rss = false)
    (hst : st.rsskey = some (baseKey cfg n) ∧ st.rsskey_len = n)
    (hnic : nic.rsskey = some (baseKey cfg n') ∧ nic.rsskey_len = n') (hnb : 1 < nb_queues) (hm : 1 ≤ m)
    (hreta : reta_size.toNat = 2 ^ m) : ¬ RssAgrees st nic nb_queues reta_size := by
  have h40 : baseKey cfg 40 = keyBytes defaultRsskey40bytes := by
    rw [baseKey, hsym]
    rfl
  have h52 : baseKey cfg 52 = keyBytes defaultRsskey52bytes := by
    rw [baseKey, hsym]
    rfl
  -- 16 low zero bits under one key, and one low bit under the other
  have hhash40 : (toeplitzHash 40 (keyBytes defaultRsskey40bytes)
      (bytes32 0 ++ bytes32 0 ++ bytes16 0xea33 ++ bytes16 0x3289)).toNat = 0x93570000 := by
    set_option maxRecDepth 2000 in
    decide
  have hhash52 : (toeplitzHash 52 (keyBytes defaultRsskey52bytes)
      (bytes32 0 ++ bytes32 0 ++ bytes16 0xea33 ++ bytes16 0x3289)).toNat = 0xb2780001 := by
    set_option maxRecDepth 2000 in
    decide
  have hlt : m < 16 := by
    have := reta_size.toNat_lt
    rw [hreta] at this
    exact (Nat.pow_lt_pow_iff_right (by omega)).mp this
  have hsplit : (2 : ℕ) ^ 16 = 2 ^ m * 2 ^ (16 - m) := by
    rw [← Nat.pow_add, show m + (16 - m) = 16 by omega]
  have htwo : 2 ≤ 2 ^ m := by
    have := Nat.pow_le_pow_right (show 0 < 2 by omega) hm
    omega
  have hq40 : 0x93570000 % 2 ^ m % nb_queues = 0 := by
    have hval : 0x93570000 = 2 ^ 16 * 0x9357 := by decide
    rw [hval, hsplit, Nat.mul_assoc, Nat.mul_mod_right, Nat.zero_mod]
  have hq52 : 0xb2780001 % 2 ^ m % nb_queues = 1 := by
    have hval : 0xb2780001 = 2 ^ 16 * 0xb278 + 1 := by decide
    rw [hval, hsplit, Nat.mul_assoc, Nat.mul_add_mod, Nat.mod_eq_of_lt htwo, Nat.mod_eq_of_lt hnb]
  intro h
  have hflow := h 0 0 0 0xea33 0x3289
  rw [rssCheck_some hst.1 hnb hreta, nicQueue_some hnic.1 _ hreta, hst.2, hnic.2, hreta] at hflow
  obtain ⟨rfl, rfl⟩ | ⟨rfl, rfl⟩ := hn
  · rw [h40, h52, hhash40, hhash52, hq40, hq52] at hflow
    exact absurd hflow (by decide)
  · rw [h40, h52, hhash40, hhash52, hq40, hq52] at hflow
    exact absurd hflow (by decide)

/-- With ports of both key lengths and no rewritten key, no process predicts the queues of a port
whose length is not the last one's.
SOURCE: lib/ff_dpdk_if.c:733-747 -/
theorem not_rssAgrees_of_sizes {mid rest : List (ℕ × RssDev)} {e : ℕ × RssDev} (hx : Supported x.2) (he : Supported e.2)
    (hrest : ∀ y ∈ rest, y.2.flow_type_rss_offloads = false) (hsym : cfg.symmetric_rss = false)
    (hsize : e.2.hash_key_size ≠ x.2.hash_key_size) (hpubx : ¬ PrimaryPublishes cfg pre x)
    (hpube : ¬ ProcPublishes cfg is_primary (pre ++ x :: mid) e) (hnb : 1 < nb_queues) (hm : 1 ≤ m)
    (hreta : reta_size.toNat = 2 ^ m) :
    ¬ RssAgrees (procKey (initPortStart cfg (pre ++ x :: (mid ++ e :: rest))) is_primary)
      (initPortStart cfg (pre ++ [x])).primary nb_queues reta_size := by
  have hn : e.2.hash_key_size = 40 ∧ x.2.hash_key_size = 52 ∨
      e.2.hash_key_size = 52 ∧ x.2.hash_key_size = 40 := by
    obtain hx := hx.2
    obtain he := he.2
    omega
  rw [show pre ++ x :: (mid ++ e :: rest) = ((pre ++ x :: mid) ++ [e]) ++ rest by simp,
    initPortStart_incapable _ hrest]
  exact default_keys_differ hn hsym (proc_base is_primary he hpube) (primary_base hx hpubx)
    hnb hm hreta

end Devices

/-- A port of two queues with a 40-byte key and a table of 128 entries. -/
def fortyBytePort : RssPort where
  slaves := []
  dev := ⟨true, 40, 128, helperCalls true, helperCalls true⟩
  nb_queues := 2

theorem rssPredicted_fortyBytePort :
    RssPredicted ⟨false, false⟩ true [fortyBytePort, fortyBytePort] := by
  have hnone : ∀ x, openedKey ⟨false, false⟩ x = none := by
    intro x
    rw [openedKey, if_neg]
    rintro ⟨-, -, hadj, -⟩
    cases hadj
  refine rssPredicted ⟨false, false⟩ true ?_ ?_
  · intro port hport
    obtain rfl : port = fortyBytePort := by simpa using hport
    refine ⟨by decide, fun x hx => ⟨7, by decide, ?_⟩⟩
    obtain rfl : x = (2, fortyBytePort.dev) := by simpa [RssPort.devs, fortyBytePort] using hx
    decide
  · intro before port after hports _
    have hmem : ∀ q ∈ before ++ port :: after, q = fortyBytePort := by
      rw [← hports]
      simp
    apply sharedKey_of_chosen true _ _ _ hnone
    intro y hy
    obtain ⟨q, hq, hy⟩ := List.mem_flatMap.mp hy
    obtain rfl := hmem q (by simp [hq])
    obtain rfl := hmem port (by simp)
    obtain rfl : y = (2, fortyBytePort.dev) := by simpa [RssPort.devs, fortyBytePort] using hy
    exact ⟨by decide, rfl⟩

/-- Two such ports.  The first publishes a rewritten key and gives it to its device; for the second
one `rsskey` is set back, and the key is not rewritten again. -/
theorem fortyBytePorts_not_predicted :
    ¬ RssPredicted ⟨false, true⟩ true [fortyBytePort, fortyBytePort] := by
  intro h
  have hflow := h [] fortyBytePort [fortyBytePort] rfl (by decide) 0 0 0 0 0x80
  revert hflow
  set_option maxRecDepth 2000 in
  decide

end FStack.Analysis
