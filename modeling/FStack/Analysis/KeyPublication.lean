import FStack.Analysis.SymmetricKey

/-!
# One key for all processes

The context for IPv4 keeps the key that its own helper has rewritten, while the published key has
the window of the IPv6 helper rewritten as well.  That window begins behind the bits that the hash
of an IPv4 flow reads, so both hash such a flow alike (`BuildState.right`).

The primary programs the NIC with the key it has published, or with the key it began with.  When it
has no memory for the new key its contexts stay, and a secondary process that finds them publishes
what the primary did not; and a secondary process whose own calls fail goes on with another key
(`keysConsistent_iff`).
-/

set_option autoImplicit false

namespace FStack.Analysis

open FStack.Model

/-! ## Keys -/

/-- Two keys have the same `len` bytes. -/
def SameKeyBytes (len : ℕ) (key key' : ℕ → UInt8) : Prop := ∀ n < len, key n = key' n

/-- `rte_thash_add_helper` for a window from bit `off` on rewrites no other bits. -/
def RewritesOnly (off : ℕ) (add_helper : (ℕ → UInt8) → Option (ℕ → UInt8)) : Prop :=
  ∀ key key', add_helper key = some key' →
    ∀ n, n < off ∨ off + 47 ≤ n → keyBit key' n = keyBit key n

theorem sameKeyBytes_iff {len : ℕ} {key key' : ℕ → UInt8} :
    SameKeyBytes len key key' ↔ ∀ n < 8 * len, keyBit key n = keyBit key' n := by
  constructor
  · intro h n hn
    rw [keyBit, keyBit, h (n / 8) (by omega)]
  · intro h n hn
    have hbits : ∀ b < 8, byteBit (key n) b = byteBit (key' n) b := by
      intro b hb
      have hbit := h (8 * n + b) (by omega)
      rwa [keyBit, keyBit, show (8 * n + b) / 8 = n by omega,
        show (8 * n + b) % 8 = b by omega] at hbit
    apply UInt8.toBitVec_inj.mp
    exact BitVec.eq_of_getMsbD_eq hbits

theorem SameKeyBytes.symm {len : ℕ} {key key' : ℕ → UInt8} (h : SameKeyBytes len key key') :
    SameKeyBytes len key' key := fun n hn => (h n hn).symm

theorem SameKeyBytes.trans {len : ℕ} {key₁ key₂ key₃ : ℕ → UInt8} (h : SameKeyBytes len key₁ key₂)
    (h' : SameKeyBytes len key₂ key₃) : SameKeyBytes len key₁ key₃ :=
  fun n hn => (h n hn).trans (h' n hn)

theorem sameKeyBytes_comm {len : ℕ} {key key' : ℕ → UInt8} :
    SameKeyBytes len key key' ↔ SameKeyBytes len key' key := ⟨SameKeyBytes.symm, SameKeyBytes.symm⟩

/-- The two windows have no bit in common, so both rewritings together leave the key as it
was only if each of them does.
SOURCE: lib/ff_dpdk_if.c:154-162 -/
theorem sameKeyBytes_both {len : ℕ} {key key_v4 key_v6 : ℕ → UInt8}
    (h4 : ∀ n, n < 80 ∨ 80 + 47 ≤ n → keyBit key_v4 n = keyBit key n)
    (h6 : ∀ n, n < 256 ∨ 256 + 47 ≤ n → keyBit key_v6 n = keyBit key_v4 n) :
    SameKeyBytes len key_v6 key ↔ SameKeyBytes len key_v4 key ∧ SameKeyBytes len key_v6 key_v4 := by
  constructor
  · intro h
    have h4' : SameKeyBytes len key_v4 key := by
      rw [sameKeyBytes_iff] at h ⊢
      intro n hn
      by_cases hwin : n < 80 ∨ 80 + 47 ≤ n
      · exact h4 n hwin
      · rw [← h6 n (by omega), h n hn]
    exact ⟨h4', h.trans h4'.symm⟩
  · rintro ⟨h4', h6'⟩
    exact h6'.trans h4'

/-- The hash of 12 bytes reads the first 128 key bits.
SOURCE: lib/ff_dpdk_if.c:2610-2631 -/
theorem toeplitzHash_twelve {len : ℕ} {key key' : ℕ → UInt8} {data : List UInt8}
    (hdata : data.length = 12) (hkey : ∀ n < 128, keyBit key n = keyBit key' n) :
    toeplitzHash len key data = toeplitzHash len key' data := by
  apply toeplitzHash_congr (by omega)
  intro n hn
  rw [hashKeyBit, hashKeyBit, hkey n (by omega)]

/-- The helper of `rte_thash` is of that kind.
SOURCE: dpdk/lib/hash/rte_thash.c:544-631 -/
theorem rteThashAddHelper_rewritesOnly (key_len reta_sz_log off : ℕ) (env : ThashEnv) :
    RewritesOnly off (fun key => rteThashAddHelper key_len reta_sz_log key 16 off env) := by
  intro key key' h n hn
  dsimp only at h
  unfold rteThashAddHelper at h
  split at h
  · cases h
  split at h
  · cases h
  dsimp only at h
  split at h
  · cases h
  cases h
  rw [keyBit_writeSubkey, TOEPLITZ_HASH_LEN, if_neg (by omega)]

/-! ## One context -/

/-- The key of a context that the primary makes, when each of its calls succeeds. -/
def madeKey (c : ThashCalls) (key : ℕ → UInt8) : Option (ℕ → UInt8) :=
  if c.init_ctx && c.get_helper && c.get_key then c.add_helper key else none

/-- The key of a context that a secondary process finds, when each of its calls succeeds. -/
def foundKey (c : ThashCalls) (entry : Option (ℕ → UInt8)) : Option (ℕ → UInt8) :=
  if c.get_helper && c.get_key then entry else none

/-- The primary leaves a context exactly if all calls about it succeed.
SOURCE: lib/ff_dpdk_if.c:3054-3098 -/
theorem openContext_primary (key : ℕ → UInt8) (c : ThashCalls) :
    openContext true none key c = (madeKey c key, madeKey c key) := by
  rw [openContext, madeKey]
  cases hinit : c.init_ctx with
  | false => simp
  | true =>
    cases hadd : c.add_helper key with
    | none => simp
    | some key' =>
      cases c.get_helper <;> cases c.get_key <;> simp

/-- A secondary process changes no context.
SOURCE: lib/ff_dpdk_if.c:3072-3098 -/
theorem openContext_secondary (entry : Option (ℕ → UInt8)) (key : ℕ → UInt8) (c : ThashCalls) :
    openContext false entry key c = (foundKey c entry, entry) := by
  rw [openContext, foundKey]
  cases entry with
  | none => simp
  | some key' => cases c.get_helper <;> cases c.get_key <;> simp

/-! ## One process -/

/-- The RSS key of a process after the call, with respect to its state before: a ready context
hashes as the published key does, and without a publication the key is as it was. -/
structure ProcRight (s s' : BuildState) : Prop where
  ready : s'.rss_thash_ready = true → s'.ff_rss_key_built = true ∧
    ∃ pub_key ctx_key, s'.rsskey = some pub_key ∧ s'.rss_thash_ctx = some ctx_key ∧
      ∀ data : List UInt8, data.length = 12 →
        toeplitzHash s'.rsskey_len pub_key data = toeplitzHash s'.rsskey_len ctx_key data
  ready6 : s'.rss_thash6_ready = true → s'.ff_rss_key_built = true ∧
    ∃ pub_key ctx_key, s'.rsskey = some pub_key ∧ s'.rss_thash6_ctx = some ctx_key ∧
      ∀ data : List UInt8, data.length = 36 →
        toeplitzHash s'.rsskey_len pub_key data = toeplitzHash s'.rsskey_len ctx_key data
  quiet : s'.ff_rss_key_built = false → s'.rsskey = s.rsskey ∧ s'.rsskey_len = s.rsskey_len

/-- The call goes past its tests on the configuration. -/
def BuildsKey (thash_adjust : Bool) (reta_size : UInt16) : Prop :=
  thash_adjust = true ∧ 2 ≤ reta_size.toNat

instance (thash_adjust : Bool) (reta_size : UInt16) :
    Decidable (BuildsKey thash_adjust reta_size) :=
  inferInstanceAs (Decidable (_ ∧ _))

/-- The key after the call: what is published from the keys of the two contexts. -/
def pubKey (key_mem : Bool) (v4 v6 : Option (ℕ → UInt8)) (key : ℕ → UInt8) : ℕ → UInt8 :=
  if key_mem then (v6.or v4).getD key else key

namespace BuildState

theorem ffRssThashBuildKey_start {key : ℕ → UInt8} {len : ℕ} (contexts : ThashList)
    (is_primary : Bool) {thash_adjust : Bool} {reta_size : UInt16} (c : BuildCalls)
    (hlen : len = 40 ∨ len = 52) (h : BuildsKey thash_adjust reta_size) :
    (BuildState.start key len contexts).ffRssThashBuildKey is_primary thash_adjust reta_size c =
      (BuildState.start key len contexts).buildContexts is_primary c key := by
  obtain ⟨hadj, hreta⟩ := h
  have h1 : ¬ (thash_adjust = false ∨ len = 0) := by
    rw [hadj]
    simp only [Bool.true_eq_false, false_or]
    omega
  have h2 : ¬ (reta_size.toNat < 2 ∨ false = true) := by
    simp only [Bool.false_eq_true, or_false]
    omega
  rw [BuildState.ffRssThashBuildKey, BuildState.start]
  dsimp only
  rw [if_neg h1, if_neg h2, if_neg (by omega)]

theorem ffRssThashBuildKey_skip {key : ℕ → UInt8} {len : ℕ} (contexts : ThashList)
    (is_primary : Bool) {thash_adjust : Bool} {reta_size : UInt16} (c : BuildCalls)
    (h : ¬ BuildsKey thash_adjust reta_size) :
    (BuildState.start key len contexts).ffRssThashBuildKey is_primary thash_adjust reta_size c =
      BuildState.start key len contexts := by
  rw [BuildState.ffRssThashBuildKey, BuildState.start]
  dsimp only
  split
  · rfl
  split
  · rfl
  rename_i hadj hreta
  rw [not_or] at hadj hreta
  exact absurd ⟨Bool.not_eq_false _ ▸ hadj.1, by omega⟩ h

/-- The globals after the contexts have been opened, with the keys that
`rte_thash_get_key` returned for them.
SOURCE: lib/ff_dpdk_if.c:3050-3180 -/
theorem buildContexts_toKeyState (key : ℕ → UInt8) (len : ℕ) (contexts : ThashList)
    (is_primary : Bool) (c : BuildCalls) :
    ((BuildState.start key len contexts).buildContexts is_primary c key).toKeyState =
      ⟨some (pubKey c.key_mem (openContext is_primary contexts.v4 key c.v4).1
        ((openContext is_primary contexts.v4 key c.v4).1.bind
          fun key_v4 => (openContext is_primary contexts.v6 key_v4 c.v6).1) key), len,
        (openContext is_primary contexts.v4 key c.v4).1.isSome && c.key_mem⟩ := by
  rw [BuildState.buildContexts, BuildState.start]
  dsimp only
  cases hv4 : (openContext is_primary contexts.v4 key c.v4).1 with
  | none =>
    dsimp only
    rw [Option.bind_none, pubKey]
    simp
  | some key_v4 =>
    dsimp only
    rw [Option.bind_some, pubKey]
    cases hv6 : (openContext is_primary contexts.v6 key_v4 c.v6).1 <;>
      cases hmem : c.key_mem <;> simp [BuildState.publish]

/-- The call leaves a process right, if the two contexts agree on the bits that the hash
of an IPv4 flow reads.
SOURCE: lib/ff_dpdk_if.c:3025-3180 -/
theorem buildContexts_right {key : ℕ → UInt8} {len : ℕ} (contexts : ThashList)
    (is_primary : Bool) (c : BuildCalls)
    (hctx : ∀ key_v4 key_v6, (openContext is_primary contexts.v4 key c.v4).1 = some key_v4 →
      (openContext is_primary contexts.v6 key_v4 c.v6).1 = some key_v6 →
        ∀ n < 128, keyBit key_v6 n = keyBit key_v4 n) :
    ProcRight (BuildState.start key len contexts)
      ((BuildState.start key len contexts).buildContexts is_primary c key) := by
  rw [BuildState.buildContexts, BuildState.start]
  dsimp only
  cases hv4 : (openContext is_primary contexts.v4 key c.v4).1 with
  | none => exact ⟨nofun, nofun, fun _ => ⟨rfl, rfl⟩⟩
  | some key_v4 =>
    dsimp only
    cases hmem : c.key_mem with
    | false =>
      -- both ways to the label end with the flags taken back
      split <;> exact ⟨nofun, nofun, fun _ => ⟨rfl, rfl⟩⟩
    | true =>
      cases hv6 : (openContext is_primary contexts.v6 key_v4 c.v6).1 with
      | none => exact ⟨fun _ => ⟨rfl, key_v4, key_v4, rfl, rfl, fun _ _ => rfl⟩, nofun, nofun⟩
      | some key_v6 =>
        refine ⟨fun _ => ⟨rfl, key_v6, key_v4, rfl, rfl, ?_⟩,
          fun _ => ⟨rfl, key_v6, key_v6, rfl, rfl, fun _ _ => rfl⟩, nofun⟩
        intro data hdata
        exact toeplitzHash_twelve hdata (hctx key_v4 key_v6 hv4 hv6)

end BuildState

/-! ## The processes of a port -/

section Processes

variable {key : ℕ → UInt8} {len : ℕ} {thash_adjust : Bool} {reta_size : UInt16} {p : BuildCalls}

/-- The key of the primary's context for IPv6, when it makes both. -/
def madeKey6 (p : BuildCalls) (key : ℕ → UInt8) : Option (ℕ → UInt8) :=
  (madeKey p.v4 key).bind (madeKey p.v6)

/-- What the primary ends with.
SOURCE: lib/ff_dpdk_if.c:3025-3180 -/
theorem primary_outcome (hlen : len = 40 ∨ len = 52) (h : BuildsKey thash_adjust reta_size) :
    let s := BuildState.primary key len thash_adjust reta_size p
    s.rsskey = some (pubKey p.key_mem (madeKey p.v4 key) (madeKey6 p key) key) ∧
      s.rsskey_len = len ∧ s.contexts = ⟨madeKey p.v4 key, madeKey6 p key⟩ := by
  rw [BuildState.primary, BuildState.ffRssThashBuildKey_start _ _ _ hlen h]
  have hkey := BuildState.buildContexts_toKeyState key len ⟨none, none⟩ true p
  simp only [openContext_primary] at hkey
  refine ⟨congrArg KeyState.rsskey hkey, congrArg KeyState.rsskey_len hkey, ?_⟩
  · rw [BuildState.buildContexts, BuildState.start]
    simp only [openContext_primary, madeKey6]
    cases hv4 : madeKey p.v4 key with
    | none => rfl
    | some key_v4 =>
      rw [Option.bind_some]
      dsimp only
      cases hv6 : madeKey p.v6 key_v4 <;> cases hmem : p.key_mem <;> simp [BuildState.publish]

/-- What a secondary process ends with.
SOURCE: lib/ff_dpdk_if.c:3025-3180 -/
theorem secondary_outcome (hlen : len = 40 ∨ len = 52) (h : BuildsKey thash_adjust reta_size)
    (c : BuildCalls) :
    let s := BuildState.secondary key len thash_adjust reta_size p c
    let v4 := foundKey c.v4 (madeKey p.v4 key)
    s.rsskey = some (pubKey c.key_mem v4
      (v4.bind fun _ => foundKey c.v6 (madeKey6 p key)) key) ∧ s.rsskey_len = len := by
  rw [BuildState.secondary, BuildState.ffRssThashBuildKey_start _ _ _ hlen h,
    (primary_outcome hlen h).2.2]
  have hkey :=
    BuildState.buildContexts_toKeyState key len ⟨madeKey p.v4 key, madeKey6 p key⟩ false c
  simp only [openContext_secondary] at hkey
  exact ⟨congrArg KeyState.rsskey hkey, congrArg KeyState.rsskey_len hkey⟩

/-- The key is the same in both processes. -/
def SameKey (s s' : BuildState) : Prop :=
  s.rsskey_len = s'.rsskey_len ∧
    ∃ key key', s.rsskey = some key ∧ s'.rsskey = some key' ∧ SameKeyBytes s.rsskey_len key key'

/-- What the processes of a port hold after `ff_rss_thash_build_key`.  The key of the primary is
the one that `rte_eth_dev_configure` gets next.
SOURCE: lib/ff_dpdk_if.c:754-756, lib/ff_dpdk_if.c:3025-3180 -/
structure KeysConsistent (key : ℕ → UInt8) (len : ℕ) (thash_adjust : Bool) (reta_size : UInt16)
    (p : BuildCalls) (ss : List BuildCalls) : Prop where
  primary : ProcRight (BuildState.start key len ⟨none, none⟩)
    (BuildState.primary key len thash_adjust reta_size p)
  secondary : ∀ c ∈ ss, ProcRight
    (BuildState.start key len (BuildState.primary key len thash_adjust reta_size p).contexts)
    (BuildState.secondary key len thash_adjust reta_size p c)
  same : ∀ c ∈ ss, SameKey (BuildState.secondary key len thash_adjust reta_size p c)
    (BuildState.primary key len thash_adjust reta_size p)

/-- With the contexts that the primary has left, a secondary process publishes a key exactly if the
primary does, and takes it from the context for IPv6 exactly if the primary does.  Where they
differ, the helper whose rewriting one of them lacks leaves the key as it was. -/
def SamePublication (key : ℕ → UInt8) (len : ℕ) (p c : BuildCalls) : Prop :=
  ∀ key_v4, madeKey p.v4 key = some key_v4 →
    (p.key_mem = (c.v4.get_helper && c.v4.get_key && c.key_mem) ∨ SameKeyBytes len key_v4 key) ∧
    ∀ key_v6, madeKey p.v6 key_v4 = some key_v6 →
      p.key_mem = (c.v4.get_helper && c.v4.get_key && c.key_mem &&
        (c.v6.get_helper && c.v6.get_key)) ∨ SameKeyBytes len key_v6 key_v4

theorem madeKey_rewrites {c : ThashCalls} {off : ℕ} {key' : ℕ → UInt8}
    (h : RewritesOnly off c.add_helper) (hmade : madeKey c key = some key') :
    ∀ n, n < off ∨ off + 47 ≤ n → keyBit key' n = keyBit key n := by
  rw [madeKey] at hmade
  split at hmade
  · exact h key key' hmade
  · cases hmade

/-- The call leaves the primary right. -/
theorem primary_right (hlen : len = 40 ∨ len = 52) (h6 : RewritesOnly 256 p.v6.add_helper) :
    ProcRight (BuildState.start key len ⟨none, none⟩)
      (BuildState.primary key len thash_adjust reta_size p) := by
  by_cases h : BuildsKey thash_adjust reta_size
  · rw [BuildState.primary, BuildState.ffRssThashBuildKey_start _ _ _ hlen h]
    apply BuildState.buildContexts_right
    intro key_v4 key_v6 _ hv6 n hn
    rw [openContext_primary] at hv6
    exact madeKey_rewrites h6 hv6 n (by omega)
  · rw [BuildState.primary, BuildState.ffRssThashBuildKey_skip _ _ _ h]
    exact ⟨nofun, nofun, fun _ => ⟨rfl, rfl⟩⟩

/-- The call leaves a secondary process right, whatever contexts the primary left. -/
theorem secondary_right (hlen : len = 40 ∨ len = 52) (h6 : RewritesOnly 256 p.v6.add_helper)
    (c : BuildCalls) :
    ProcRight
      (BuildState.start key len (BuildState.primary key len thash_adjust reta_size p).contexts)
      (BuildState.secondary key len thash_adjust reta_size p c) := by
  by_cases h : BuildsKey thash_adjust reta_size
  · rw [BuildState.secondary, BuildState.ffRssThashBuildKey_start _ _ _ hlen h,
      (primary_outcome hlen h).2.2]
    apply BuildState.buildContexts_right
    intro key_v4 key_v6 hv4 hv6 n hn
    -- both keys are the primary's: the second was made from the first
    rw [openContext_secondary, foundKey] at hv4 hv6
    split at hv4
    · split at hv6
      · dsimp only at hv4 hv6
        rw [madeKey6, hv4, Option.bind_some] at hv6
        exact madeKey_rewrites h6 hv6 n (by omega)
      · cases hv6
    · cases hv4
  · rw [BuildState.secondary, BuildState.ffRssThashBuildKey_skip _ _ _ h]
    exact ⟨nofun, nofun, fun _ => ⟨rfl, rfl⟩⟩

/-- The key of a secondary process that finds a context for IPv4. -/
theorem pubKey_found (c : BuildCalls) (key_v4 : ℕ → UInt8) (entry : Option (ℕ → UInt8)) :
    pubKey c.key_mem (foundKey c.v4 (some key_v4))
        ((foundKey c.v4 (some key_v4)).bind fun _ => foundKey c.v6 entry) key =
      if c.v4.get_helper && c.v4.get_key && c.key_mem then
        if c.v6.get_helper && c.v6.get_key then entry.getD key_v4 else key_v4
      else key := by
  rw [foundKey, foundKey, pubKey]
  generalize (c.v4.get_helper && c.v4.get_key) = got4
  generalize (c.v6.get_helper && c.v6.get_key) = got6
  cases got4 <;> cases got6 <;> cases c.key_mem <;> cases entry <;> rfl

/-- Which secondary processes end with the primary's key.
SOURCE: lib/ff_dpdk_if.c:3140-3178 -/
theorem secondary_same_iff (hlen : len = 40 ∨ len = 52) (h : BuildsKey thash_adjust reta_size)
    (h4 : RewritesOnly 80 p.v4.add_helper) (h6 : RewritesOnly 256 p.v6.add_helper)
    (c : BuildCalls) :
    SameKey (BuildState.secondary key len thash_adjust reta_size p c)
      (BuildState.primary key len thash_adjust reta_size p) ↔ SamePublication key len p c := by
  obtain ⟨hpkey, hplen, -⟩ := @primary_outcome key len thash_adjust reta_size p hlen h
  obtain ⟨hskey, hslen⟩ := @secondary_outcome key len thash_adjust reta_size p hlen h c
  have hsame : SameKey (BuildState.secondary key len thash_adjust reta_size p c)
      (BuildState.primary key len thash_adjust reta_size p) ↔
      SameKeyBytes len
        (pubKey c.key_mem (foundKey c.v4 (madeKey p.v4 key))
          ((foundKey c.v4 (madeKey p.v4 key)).bind fun _ => foundKey c.v6 (madeKey6 p key)) key)
        (pubKey p.key_mem (madeKey p.v4 key) (madeKey6 p key) key) := by
    rw [SameKey, hpkey, hplen, hskey, hslen]
    constructor
    · rintro ⟨-, _, _, ⟨⟩, ⟨⟩, hbytes⟩
      exact hbytes
    · intro hbytes
      exact ⟨rfl, _, _, rfl, rfl, hbytes⟩
  rw [hsame, SamePublication, madeKey6]
  have hrefl : ∀ k : ℕ → UInt8, SameKeyBytes len k k := fun _ _ _ => rfl
  cases hv4 : madeKey p.v4 key with
  | none =>
    -- no context, and every process keeps its key
    simp [foundKey, pubKey, hrefl]
  | some key_v4 =>
    have hw4 := madeKey_rewrites h4 hv4
    have hcomm4 : SameKeyBytes len key key_v4 ↔ SameKeyBytes len key_v4 key := sameKeyBytes_comm
    rw [pubKey_found, Option.bind_some, pubKey]
    generalize (c.v4.get_helper && c.v4.get_key && c.key_mem) = pub
    generalize (c.v6.get_helper && c.v6.get_key) = got6
    cases hv6 : madeKey p.v6 key_v4 with
    | none =>
      cases p.key_mem <;> cases pub <;> cases got6 <;>
        simp [hrefl, hv6, hcomm4]
    | some key_v6 =>
      have hcomm : SameKeyBytes len key key_v6 ↔ SameKeyBytes len key_v6 key := sameKeyBytes_comm
      have hcomm6 : SameKeyBytes len key_v4 key_v6 ↔ SameKeyBytes len key_v6 key_v4 :=
        sameKeyBytes_comm
      have hboth : SameKeyBytes len key_v6 key ↔
          SameKeyBytes len key_v4 key ∧ SameKeyBytes len key_v6 key_v4 :=
        sameKeyBytes_both hw4 (madeKey_rewrites h6 hv6)
      cases p.key_mem <;> cases pub <;> cases got6 <;>
        simp [hrefl, hv6, hboth, hcomm, hcomm6]

/-- The processes of a port stay consistent exactly if each secondary process publishes as the
primary does.
SOURCE: lib/ff_dpdk_if.c:3025-3180 -/
theorem keysConsistent_iff (key : ℕ → UInt8) {len : ℕ} (hlen : len = 40 ∨ len = 52)
    (thash_adjust : Bool) (reta_size : UInt16) {p : BuildCalls} (ss : List BuildCalls)
    (h4 : RewritesOnly 80 p.v4.add_helper) (h6 : RewritesOnly 256 p.v6.add_helper) :
    KeysConsistent key len thash_adjust reta_size p ss ↔
      (BuildsKey thash_adjust reta_size → ∀ c ∈ ss, SamePublication key len p c) := by
  constructor
  · intro hcons h c hc
    exact (secondary_same_iff hlen h h4 h6 c).mp (hcons.same c hc)
  · intro hpub
    refine ⟨primary_right hlen h6, fun c _ => secondary_right hlen h6 c, ?_⟩
    intro c hc
    by_cases h : BuildsKey thash_adjust reta_size
    · exact (secondary_same_iff hlen h h4 h6 c).mpr (hpub h c hc)
    · -- every process goes on with the key that it began with
      rw [BuildState.secondary, BuildState.ffRssThashBuildKey_skip _ _ _ h, BuildState.primary,
        BuildState.ffRssThashBuildKey_skip _ _ _ h]
      exact ⟨rfl, key, key, rfl, rfl, fun _ _ => rfl⟩

end Processes

/-! ## The helper of `rte_thash` -/

/-- A register with the polynomial `x ^ 7 + x ^ 6 + 1`, and memory for everything. -/
def sevenBits : ThashEnv := ⟨true, true, 0x41, 1, none⟩

/-- A process whose calls about contexts all succeed, on a port with a table of 128 entries. -/
def helperCalls (key_mem : Bool) : BuildCalls where
  v4 := ⟨true, fun key => rteThashAddHelper 40 7 key 16 80 sevenBits, true, true⟩
  v6 := ⟨true, fun key => rteThashAddHelper 40 7 key 16 256 sevenBits, true, true⟩
  key_mem := key_mem

theorem keysConsistent_iff_helperCalls :
    KeysConsistent (keyBytes defaultRsskey40bytes) 40 true 128 (helperCalls true)
        [helperCalls true] ↔
      (BuildsKey true 128 → ∀ c ∈ [helperCalls true],
        SamePublication (keyBytes defaultRsskey40bytes) 40 (helperCalls true) c) :=
  keysConsistent_iff _ (Or.inl rfl) _ _ _ (rteThashAddHelper_rewritesOnly 40 7 80 sevenBits)
    (rteThashAddHelper_rewritesOnly 40 7 256 sevenBits)

/-- The primary has no memory for the new key and programs the NIC with the old one; its contexts
stay, and a secondary process publishes their key. -/
theorem helperCalls_not_consistent :
    ¬ KeysConsistent (keyBytes defaultRsskey40bytes) 40 true 128 (helperCalls false)
      [helperCalls true] := by
  rintro ⟨-, -, hsame⟩
  obtain ⟨-, key, key', hkey, hkey', hbytes⟩ := hsame (helperCalls true) (List.mem_singleton_self _)
  have hprimary : (BuildState.primary (keyBytes defaultRsskey40bytes) 40 true 128
      (helperCalls false)).rsskey.map (fun key => key 11) = some 0xfc := by decide
  have hsecondary : (BuildState.secondary (keyBytes defaultRsskey40bytes) 40 true 128
      (helperCalls false) (helperCalls true)).rsskey.map (fun key => key 11) = some 0xfd := by
    set_option maxRecDepth 2000 in
    decide
  have hlen : (BuildState.secondary (keyBytes defaultRsskey40bytes) 40 true 128
      (helperCalls false) (helperCalls true)).rsskey_len = 40 := by decide
  rw [hkey', Option.map_some, Option.some.injEq] at hprimary
  rw [hkey, Option.map_some, Option.some.injEq] at hsecondary
  have h11 := hbytes 11 (by rw [hlen]; decide)
  rw [hprimary, hsecondary] at h11
  cases h11

/-! ## The key alone -/

/-- The calls about the contexts of a port, where memory and random numbers decide. -/
def portCalls (p : PortInit) (len : ℕ) : BuildCalls :=
  let reta_log2 := ffRssRetaLog2 p.reta_size
  let init (env : ThashEnv) : Bool :=
    !decide (len = 0 ∨ ¬ (2 ≤ reta_log2 ∧ reta_log2 ≤ 16) ∨ env.ctx_mem = false)
  { v4 := ⟨init p.v4, fun key => rteThashAddHelper len reta_log2 key 16 80 p.v4, true, true⟩
    v6 := ⟨init p.v6, fun key => rteThashAddHelper len reta_log2 key 16 256 p.v6, true, true⟩
    key_mem := p.key_mem }

/-- The contexts that are there before the call. -/
def portContexts (p : PortInit) : ThashList :=
  if p.is_primary then ⟨none, none⟩ else ⟨p.v4.existing, p.v6.existing⟩

/-- The steps about one context, when the context is there afterwards. -/
theorem openContext_eq_thashContext (is_primary : Bool) (len reta_log2 off : ℕ)
    (key : ℕ → UInt8) (env : ThashEnv) (c : ThashCalls)
    (hinit : c.init_ctx =
      !decide (len = 0 ∨ ¬ (2 ≤ reta_log2 ∧ reta_log2 ≤ 16) ∨ env.ctx_mem = false))
    (hadd : c.add_helper key = rteThashAddHelper len reta_log2 key 16 off env)
    (hget : c.get_helper = true ∧ c.get_key = true) :
    (openContext is_primary (if is_primary then none else env.existing) key c).1 =
      thashContext is_primary len reta_log2 key off env := by
  cases is_primary with
  | false =>
    rw [openContext_secondary, foundKey, hget.1, hget.2, thashContext]
    rfl
  | true =>
    rw [if_pos rfl, openContext_primary, madeKey, hget.1, hget.2, hadd, hinit, thashContext,
      if_pos rfl]
    by_cases h : len = 0 ∨ ¬ (2 ≤ reta_log2 ∧ reta_log2 ≤ 16) ∨ env.ctx_mem = false
    · rw [if_pos h, decide_eq_true h]
      rfl
    · rw [if_neg h, decide_eq_false h]
      rfl

/-- What is left of the call when only the key is looked at.
SOURCE: lib/ff_dpdk_if.c:3025-3180 -/
theorem ffRssThashBuildKey_toKeyState (s : BuildState) (p : PortInit)
    (hctx : s.contexts = portContexts p) :
    (s.ffRssThashBuildKey p.is_primary p.thash_adjust p.reta_size
      (portCalls p s.rsskey_len)).toKeyState = ffRssThashBuildKey s.toKeyState p := by
  rw [BuildState.ffRssThashBuildKey, ffRssThashBuildKey]
  dsimp only
  cases hkey : s.rsskey with
  | none => rfl
  | some key =>
    dsimp only
    split
    · rfl
    split
    · rfl
    split
    · rfl
    have hlist : s.contexts = ⟨if p.is_primary then none else p.v4.existing,
        if p.is_primary then none else p.v6.existing⟩ := by
      rw [hctx, portContexts]
      cases p.is_primary <;> rfl
    have hopen4 := openContext_eq_thashContext p.is_primary s.rsskey_len
      (ffRssRetaLog2 p.reta_size) 80 key p.v4 (portCalls p s.rsskey_len).v4 rfl rfl ⟨rfl, rfl⟩
    have hopen6 := fun key_v4 => openContext_eq_thashContext p.is_primary s.rsskey_len
      (ffRssRetaLog2 p.reta_size) 256 key_v4 p.v6 (portCalls p s.rsskey_len).v6 rfl rfl ⟨rfl, rfl⟩
    rw [BuildState.buildContexts]
    dsimp only
    rw [hlist, hopen4]
    cases hv4 : thashContext p.is_primary s.rsskey_len (ffRssRetaLog2 p.reta_size) key 80 p.v4 with
    | none => rfl
    | some key_v4 =>
      dsimp only
      rw [hopen6 key_v4]
      have hmem : (portCalls p s.rsskey_len).key_mem = p.key_mem := rfl
      rw [hmem]
      cases thashContext p.is_primary s.rsskey_len (ffRssRetaLog2 p.reta_size) key_v4 256 p.v6 <;>
        cases p.key_mem <;> rfl

end FStack.Analysis
