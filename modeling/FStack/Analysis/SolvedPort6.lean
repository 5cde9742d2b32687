import FStack.Analysis.SolvedPort
import Mathlib.Data.List.GetD

/-!
# The solved port, IPv6

`ff_rss_adjust_sport6` solves for the port in the field of the remote side, hands it out in network
byte order, and `in_pcb_lport_dest` swaps its bytes once more before it binds it on the local side.
The IPv4 function was changed in all three respects.  The packets for the bound port come back to
this process's queue if the hash happens to agree on the two flows for every port that can be solved
(`sport6Right_iff`).
-/

set_option autoImplicit false

namespace FStack.Analysis

open FStack.Model

variable {sport k fport : UInt16} {desired : ℕ} {faddr6 laddr6 : In6Addr}

/-- The 16 bits at byte 32 of a tuple, in network byte order. -/
def field6 (tuple : List UInt8) : ℕ := (tuple.getD 32 0).toNat * 256 + (tuple.getD 33 0).toNat

/-- What `rte_thash_adjust_tuple` does on success to a tuple of 36 bytes: it changes the low bits of
the 16 at byte 32, as many as the table size has, and the hash then ends in the requested value. -/
def SolvesTuple6 (conf : RssConf) (port_id : ℕ)
    (adjust : ThashCtx → List UInt8 → ℕ → Option (List UInt8)) : Prop :=
  ∀ ctx tuple desired out, tuple.length = 36 → adjust ctx tuple desired = some out →
    out.length = 36 ∧ out.take 32 = tuple.take 32 ∧ out.drop 34 = tuple.drop 34 ∧
      field6 out / conf.rss_reta_size port_id = field6 tuple / conf.rss_reta_size port_id ∧
      (toeplitzHash conf.rsskey_len conf.rsskey out).toNat % conf.rss_reta_size port_id =
        desired % conf.rss_reta_size port_id

/-- Whatever solver is used: `htons` of the port that `ff_rss_adjust_sport6` returns passes the
check of its caller, and so does the port that is bound after at most so many attempts. -/
def Sport6Right (sys : RssSys) (port_id : ℕ) (faddr6 laddr6 : In6Addr) (fport : UInt16) : Prop :=
  ∀ adjust, SolvesTuple6 sys.conf port_id adjust →
    (∀ r p, ffRssAdjustSport6 { sys with adjust := adjust } port_id faddr6 laddr6 fport r = some p →
      ffRssCheck6 sys.conf port_id faddr6 laddr6 fport (htons p) = true) ∧
    ∀ used rand n lport,
      fastLoop6 { sys with adjust := adjust } port_id faddr6 laddr6 fport used rand n = some lport →
      ffRssCheck6 sys.conf port_id faddr6 laddr6 fport lport = true

/-- The solver is not used, or every port below the table size that the check accepts in the field
of the remote side, it accepts with its bytes swapped on the local side. -/
def Sport6Ok (sys : RssSys) (port_id : ℕ) (faddr6 laddr6 : In6Addr) (fport : UInt16) : Prop :=
  sys.thash port_id = none ∨ sys.thash_adjust = false ∨ sys.conf.nb_queue_list port_id ≤ 1 ∨
    ∀ k : UInt16, k.toNat < sys.conf.rss_reta_size port_id →
      ffRssCheck6 sys.conf port_id faddr6 laddr6 (htons k) fport = true →
      ffRssCheck6 sys.conf port_id faddr6 laddr6 fport k = true

/-! ## Byte order -/

/-- INTERNAL: the port in the field, and its bytes. -/
theorem tupleSport6_eq {tuple : List UInt8} :
    bytes16 (tupleSport6 tuple) = [tuple.getD 32 0, tuple.getD 33 0] ∧
      (htons (tupleSport6 tuple)).toNat = field6 tuple := by
  have ha := (tuple.getD 32 0).toNat_lt
  have hb := (tuple.getD 33 0).toNat_lt
  have hport : (tupleSport6 tuple).toNat =
      (tuple.getD 32 0).toNat + 256 * (tuple.getD 33 0).toNat := by
    rw [tupleSport6, UInt16.toNat_ofNat']
    omega
  refine ⟨?_, ?_⟩
  · rw [bytes16, hport]
    congr 1
    · rw [← UInt8.toNat_inj, UInt8.toNat_ofNat']
      omega
    · congr 1
      rw [← UInt8.toNat_inj, UInt8.toNat_ofNat']
      omega
  · rw [htons_toNat, hport, field6]
    omega

theorem tuple6_length (saddr6 daddr6 : In6Addr) (sport dport : UInt16) :
    (tuple6 saddr6 daddr6 sport dport).length = 36 := by
  simp [tuple6, bytes16]

/-- INTERNAL: a solved tuple is the data of the check for the port in its field. -/
theorem tuple6_of_solved {out : List UInt8} {saddr6 daddr6 : In6Addr} {dport : UInt16}
    (hlen : out.length = 36) (htake : out.take 32 = (tuple6 saddr6 daddr6 sport dport).take 32)
    (hdrop : out.drop 34 = (tuple6 saddr6 daddr6 sport dport).drop 34) :
    out = tuple6 saddr6 daddr6 (tupleSport6 out) dport := by
  have haddr : (List.ofFn saddr6 ++ List.ofFn daddr6).length = 32 := by simp
  have hhead : out.take 32 = List.ofFn saddr6 ++ List.ofFn daddr6 := by
    rw [htake, tuple6, List.append_assoc]
    exact List.take_left' haddr
  have hlast : out.drop 34 = bytes16 dport := by
    rw [hdrop, tuple6]
    exact List.drop_left' (by simp [bytes16])
  have h32 : 32 < out.length := by omega
  have h33 : 33 < out.length := by omega
  have hmid : out.drop 32 = out.getD 32 0 :: out.getD 33 0 :: out.drop 34 := by
    rw [List.drop_eq_getElem_cons h32, List.drop_eq_getElem_cons h33,
      List.getD_eq_getElem _ _ h32, List.getD_eq_getElem _ _ h33]
  calc out = out.take 32 ++ out.drop 32 := (List.take_append_drop 32 out).symm
    _ = _ := by
      rw [hhead, hmid, hlast, tuple6, tupleSport6_eq.1, List.append_assoc _ [_, _]]
      rfl

theorem field6_tuple6 (saddr6 daddr6 : In6Addr) (sport dport : UInt16) :
    tupleSport6 (tuple6 saddr6 daddr6 sport dport) = sport ∧
      field6 (tuple6 saddr6 daddr6 sport dport) = (htons sport).toNat := by
  have hlt := sport.toNat_lt
  have hget : ∀ n, (tuple6 saddr6 daddr6 sport dport).getD (32 + n) 0 =
      (bytes16 sport ++ bytes16 dport).getD n 0 := fun n => by
    have haddr : (List.ofFn saddr6 ++ List.ofFn daddr6).length = 32 := by simp
    rw [tuple6, List.append_assoc, List.getD_append_right _ _ _ _ (by omega), haddr,
      Nat.add_sub_cancel_left]
  have hlow : ((tuple6 saddr6 daddr6 sport dport).getD 32 0).toNat = sport.toNat % 256 := by
    rw [hget 0]
    simp [bytes16]
  have hhigh : ((tuple6 saddr6 daddr6 sport dport).getD 33 0).toNat = sport.toNat / 256 := by
    rw [hget 1]
    simp [bytes16]
    omega
  refine ⟨?_, ?_⟩
  · rw [← UInt16.toNat_inj, tupleSport6, hlow, hhigh, UInt16.toNat_ofNat']
    omega
  · rw [field6, hlow, hhigh, htons_toNat]

/-! ## The solver -/

section Solver

variable {sys : RssSys} {port_id : ℕ} {ctx : ThashCtx} {saddr6 daddr6 : In6Addr} {dport : UInt16}

theorem check6_of_hash (hconf : QueueConf sys.conf port_id)
    (hdes : ForQueue sys.conf port_id desired)
    (hhash : (toeplitzHash sys.conf.rsskey_len sys.conf.rsskey
      (tuple6 saddr6 daddr6 sport dport)).toNat % sys.conf.rss_reta_size port_id = desired) :
    ffRssCheck6 sys.conf port_id saddr6 daddr6 sport dport = true := by
  have hqueues := hconf.queues
  obtain ⟨k, hk⟩ := hconf.power
  rw [ffRssCheck6, if_neg (by omega)]
  rw [hk] at hhash
  exact landsOnQueue_of_mod hk hconf.reta_lt hhash hdes.2

/-- INTERNAL: the loop returns a port below the table size, in network byte order, that the check
accepts in the field of the remote side.
SOURCE: lib/ff_dpdk_if.c:3721-3746 -/
theorem adjustLoop6_solved (hconf : QueueConf sys.conf port_id)
    (hadj : SolvesTuple6 sys.conf port_id sys.adjust) {tries : ℕ} {p : UInt16}
    (hseed : (htons sport).toNat < sys.conf.rss_reta_size port_id)
    (hdes : desired % sys.conf.nb_queue_list port_id = sys.conf.tx_queue_id port_id)
    (h : adjustLoop6 sys ctx port_id saddr6 daddr6 dport tries sport desired = some p) :
    (htons p).toNat < sys.conf.rss_reta_size port_id ∧
      ffRssCheck6 sys.conf port_id saddr6 daddr6 p dport = true := by
  induction tries generalizing sport desired with
  | zero => cases h
  | succ tries ih =>
    rw [adjustLoop6] at h
    dsimp only at h
    have hreset := ForQueue.reset hconf hdes
    generalize (if sys.conf.rss_reta_size port_id ≤ desired then sys.conf.tx_queue_id port_id
      else desired) = d at h hreset
    have hnext : (d + sys.conf.nb_queue_list port_id) % sys.conf.nb_queue_list port_id =
        sys.conf.tx_queue_id port_id := by
      rw [Nat.add_mod_right]
      exact hreset.2
    rw [hreset.mask hconf] at h
    cases hout : sys.adjust ctx (tuple6 saddr6 daddr6 sport dport) d with
    | none =>
      rw [hout] at h
      exact ih hseed hnext h
    | some out =>
      rw [hout] at h
      obtain ⟨hlen, htake, hdrop, hfield, hhash⟩ :=
        hadj ctx _ _ out (tuple6_length ..) hout
      have htuple := tuple6_of_solved hlen htake hdrop
      rw [Nat.mod_eq_of_lt hreset.1] at hhash
      have hsolved : (htons (tupleSport6 out)).toNat < sys.conf.rss_reta_size port_id := by
        rw [(field6_tuple6 ..).2, Nat.div_eq_of_lt hseed] at hfield
        rw [tupleSport6_eq.2]
        exact Nat.lt_of_div_eq_zero (by have := hconf.two_le; omega) hfield
      dsimp only at h
      split at h
      · cases h
        exact ⟨hsolved, check6_of_hash hconf hreset (by rw [← htuple]; exact hhash)⟩
      · exact ih hsolved hnext h

theorem ffRssAdjustSport6_solved
    (hconf : 1 < sys.conf.nb_queue_list port_id → QueueConf sys.conf port_id)
    (hadj : SolvesTuple6 sys.conf port_id sys.adjust) {r : ℕ} {p : UInt16}
    (h : ffRssAdjustSport6 sys port_id saddr6 daddr6 dport r = some p) :
    sys.thash port_id ≠ none ∧ sys.thash_adjust = true ∧ 1 < sys.conf.nb_queue_list port_id ∧
      (htons p).toNat < sys.conf.rss_reta_size port_id ∧
      ffRssCheck6 sys.conf port_id saddr6 daddr6 p dport = true := by
  unfold ffRssAdjustSport6 at h
  cases hctx : sys.thash port_id with
  | none =>
    rw [hctx] at h
    cases h
  | some ctx =>
    rw [hctx] at h
    dsimp only at h
    split at h
    · cases h
    next hon =>
    split at h
    · cases h
    next hnb =>
    have hq := hconf (by omega)
    have hzero : (htons 0).toNat < sys.conf.rss_reta_size port_id := by
      have := hq.two_le
      exact Nat.lt_of_lt_of_le (show (htons 0).toNat < 2 by decide) this
    exact ⟨by simp, by simpa using hon, by omega,
      adjustLoop6_solved hq hadj hzero (startDesired_mod hq r) h⟩

/-- INTERNAL: a bound port is `htons` of a solved one. -/
theorem fastLoop6_some {used : UInt16 → Bool} {rand : ℕ → ℕ} {n : ℕ} {lport : UInt16}
    (h : fastLoop6 sys port_id saddr6 daddr6 dport used rand n = some lport) :
    ∃ r p, ffRssAdjustSport6 sys port_id saddr6 daddr6 dport r = some p ∧ lport = htons p := by
  induction n with
  | zero => cases h
  | succ n ih =>
    rw [fastLoop6] at h
    cases hp : ffRssAdjustSport6 sys port_id saddr6 daddr6 dport (rand n) with
    | none =>
      rw [hp] at h
      cases h
    | some p =>
      rw [hp] at h
      dsimp only at h
      split at h
      · exact ih h
      · cases h
        exact ⟨_, p, hp, rfl⟩

/-- A solver that knows one port only. -/
def onePort (conf : RssConf) (port_id : ℕ) (saddr6 daddr6 : In6Addr) (dport k : UInt16) :
    ThashCtx → List UInt8 → ℕ → Option (List UInt8) := fun _ tuple desired =>
  if tuple = tuple6 saddr6 daddr6 0 dport ∧
      desired = (toeplitzHash conf.rsskey_len conf.rsskey
        (tuple6 saddr6 daddr6 (htons k) dport)).toNat % conf.rss_reta_size port_id
  then some (tuple6 saddr6 daddr6 (htons k) dport) else none

theorem onePort_solves {conf : RssConf} (hk : k.toNat < conf.rss_reta_size port_id) :
    SolvesTuple6 conf port_id (onePort conf port_id saddr6 daddr6 dport k) := by
  intro ctx tuple desired out _ hout
  unfold onePort at hout
  split at hout
  next hreq =>
    cases hout
    obtain ⟨rfl, rfl⟩ := hreq
    have haddr : (List.ofFn saddr6 ++ List.ofFn daddr6).length = 32 := by simp
    have htake : ∀ sport, (tuple6 saddr6 daddr6 sport dport).take 32 =
        List.ofFn saddr6 ++ List.ofFn daddr6 := fun sport => by
      rw [tuple6, List.append_assoc]
      exact List.take_left' haddr
    have hdrop : ∀ sport, (tuple6 saddr6 daddr6 sport dport).drop 34 = bytes16 dport :=
      fun sport => List.drop_left' (by simp [bytes16])
    refine ⟨tuple6_length .., by rw [htake, htake], by rw [hdrop, hdrop], ?_, (Nat.mod_mod ..).symm⟩
    have hzero : (htons 0).toNat = 0 := by decide
    rw [(field6_tuple6 ..).2, (field6_tuple6 ..).2, htons_htons, hzero, Nat.div_eq_of_lt hk,
      Nat.zero_div]
  next => cases hout

/-- INTERNAL: the loop comes to every value of the queue, from the first one on. -/
theorem adjustLoop6_reaches (hconf : QueueConf sys.conf port_id) {k : UInt16} {b : ℕ}
    (hadj : sys.adjust = onePort sys.conf port_id saddr6 daddr6 dport k)
    (hv : (toeplitzHash sys.conf.rsskey_len sys.conf.rsskey
      (tuple6 saddr6 daddr6 (htons k) dport)).toNat % sys.conf.rss_reta_size port_id =
        sys.conf.tx_queue_id port_id + b * sys.conf.nb_queue_list port_id)
    (hcheck : ffRssCheck6 sys.conf port_id saddr6 daddr6 (htons k) dport = true)
    {tries a : ℕ} (hab : a ≤ b) (htries : b - a < tries) :
    adjustLoop6 sys ctx port_id saddr6 daddr6 dport tries 0
      (sys.conf.tx_queue_id port_id + a * sys.conf.nb_queue_list port_id) = some (htons k) := by
  induction tries generalizing a with
  | zero => omega
  | succ tries ih =>
    have hbelow : sys.conf.tx_queue_id port_id + b * sys.conf.nb_queue_list port_id <
        sys.conf.rss_reta_size port_id := by
      rw [← hv]
      exact Nat.mod_lt _ (by have := hconf.two_le; omega)
    have hle : a * sys.conf.nb_queue_list port_id ≤ b * sys.conf.nb_queue_list port_id :=
      Nat.mul_le_mul_right _ hab
    have hqueue : ForQueue sys.conf port_id
        (sys.conf.tx_queue_id port_id + a * sys.conf.nb_queue_list port_id) := by
      refine ⟨by omega, ?_⟩
      rw [Nat.add_mul_mod_self_right]
      exact Nat.mod_eq_of_lt hconf.queue_lt
    rw [adjustLoop6]
    dsimp only
    rw [if_neg (by omega), hqueue.mask hconf, hadj, onePort, hv]
    by_cases heq : a = b
    · subst heq
      rw [if_pos ⟨rfl, rfl⟩]
      dsimp only
      rw [(field6_tuple6 ..).1, if_pos (.inr hcheck)]
    · have hlt : (a + 1) * sys.conf.nb_queue_list port_id ≤ b * sys.conf.nb_queue_list port_id :=
        Nat.mul_le_mul_right _ (by omega)
      have hqueues := hconf.queues
      rw [Nat.add_mul, Nat.one_mul] at hlt
      rw [if_neg (by rintro ⟨-, h⟩; omega)]
      dsimp only
      rw [Nat.add_assoc, ← Nat.succ_mul]
      exact ih (by omega) (by omega)

theorem hash_of_check6 (hconf : QueueConf sys.conf port_id)
    (hcheck : ffRssCheck6 sys.conf port_id saddr6 daddr6 sport dport = true) :
    (toeplitzHash sys.conf.rsskey_len sys.conf.rsskey
      (tuple6 saddr6 daddr6 sport dport)).toNat % sys.conf.rss_reta_size port_id %
        sys.conf.nb_queue_list port_id = sys.conf.tx_queue_id port_id := by
  have hqueues := hconf.queues
  obtain ⟨k, hk⟩ := hconf.power
  have hreta := hconf.reta_lt
  have hmask : (BitVec.ofNat 32 (2 ^ k) - 1).toNat = 2 ^ k - 1 := by
    have hpos : 0 < 2 ^ k := Nat.two_pow_pos k
    have hone : (1 : BitVec 32).toNat = 1 := rfl
    rw [BitVec.toNat_sub, BitVec.toNat_ofNat, hone]
    omega
  rw [ffRssCheck6, if_neg (by omega)] at hcheck
  dsimp only at hcheck
  rw [landsOnQueue, beq_iff_eq, ← tuple6, hk, BitVec.toNat_and, hmask,
    Nat.and_two_pow_sub_one_eq_mod] at hcheck
  rw [hk]
  exact hcheck

/-- INTERNAL: a port that the check accepts in the field of the remote side can be solved for. -/
theorem onePort_returned (hconf : QueueConf sys.conf port_id) (hctx : sys.thash port_id = some ctx)
    (hon : sys.thash_adjust = true)
    (hcheck : ffRssCheck6 sys.conf port_id saddr6 daddr6 (htons k) dport = true) :
    ffRssAdjustSport6 { sys with adjust := onePort sys.conf port_id saddr6 daddr6 dport k } port_id
      saddr6 daddr6 dport 0 = some (htons k) := by
  have hqueues := hconf.queues
  have hvalue := hash_of_check6 hconf hcheck
  have hbelow : (toeplitzHash sys.conf.rsskey_len sys.conf.rsskey
      (tuple6 saddr6 daddr6 (htons k) dport)).toNat % sys.conf.rss_reta_size port_id <
        sys.conf.rss_reta_size port_id := Nat.mod_lt _ (by have := hconf.two_le; omega)
  have hsplit := Nat.mod_add_div' ((toeplitzHash sys.conf.rsskey_len sys.conf.rsskey
    (tuple6 saddr6 daddr6 (htons k) dport)).toNat % sys.conf.rss_reta_size port_id)
      (sys.conf.nb_queue_list port_id)
  rw [hvalue] at hsplit
  have hrounds : ((toeplitzHash sys.conf.rsskey_len sys.conf.rsskey
      (tuple6 saddr6 daddr6 (htons k) dport)).toNat % sys.conf.rss_reta_size port_id) /
        sys.conf.nb_queue_list port_id <
      (sys.conf.rss_reta_size port_id + sys.conf.nb_queue_list port_id - 1) /
        sys.conf.nb_queue_list port_id := by
    rw [Nat.lt_iff_add_one_le, Nat.le_div_iff_mul_le (by omega), Nat.add_mul, Nat.one_mul]
    omega
  have hreach := @adjustLoop6_reaches
    { sys with adjust := onePort sys.conf port_id saddr6 daddr6 dport k } port_id ctx saddr6 daddr6
    dport hconf k _ rfl hsplit.symm hcheck _ 0 (Nat.zero_le _) hrounds
  have hstart := hconf.queue_lt
  have hle := hconf.queues_le
  rw [Nat.zero_mul, Nat.add_zero] at hreach
  rw [ffRssAdjustSport6, hctx]
  dsimp only
  rw [if_neg (by simp [hon]), if_neg (by omega), Nat.zero_mod, Nat.zero_mul, Nat.add_zero, ite_self]
  exact hreach

end Solver

theorem Sport6Ok.right {sys : RssSys} {port_id : ℕ}
    (hconf : 1 < sys.conf.nb_queue_list port_id → QueueConf sys.conf port_id)
    (h : Sport6Ok sys port_id faddr6 laddr6 fport) :
    Sport6Right sys port_id faddr6 laddr6 fport := by
  intro adjust hadj
  have hone : ∀ r p,
      ffRssAdjustSport6 { sys with adjust := adjust } port_id faddr6 laddr6 fport r = some p →
      ffRssCheck6 sys.conf port_id faddr6 laddr6 fport (htons p) = true := by
    intro r p hp
    obtain ⟨hctx, hon, hnb, hlt, hcheck⟩ :=
      @ffRssAdjustSport6_solved { sys with adjust := adjust } port_id faddr6 laddr6 fport hconf hadj
        r p hp
    obtain hnone | hoff | hone | hagree := h
    · exact absurd hnone hctx
    · rw [hon] at hoff
      cases hoff
    · exact absurd hnb (Nat.not_lt.mpr hone)
    · exact hagree (htons p) hlt (by rw [htons_htons]; exact hcheck)
  refine ⟨hone, fun used rand n lport hlport => ?_⟩
  obtain ⟨r, p, hp, rfl⟩ := fastLoop6_some hlport
  exact hone r p hp

theorem Sport6Ok.of_right {sys : RssSys} {port_id : ℕ}
    (hconf : 1 < sys.conf.nb_queue_list port_id → QueueConf sys.conf port_id)
    (h : Sport6Right sys port_id faddr6 laddr6 fport) :
    Sport6Ok sys port_id faddr6 laddr6 fport := by
  by_cases hnb : sys.conf.nb_queue_list port_id ≤ 1
  · exact .inr (.inr (.inl hnb))
  by_cases hon : sys.thash_adjust = true
  · cases hctx : sys.thash port_id with
    | none => exact .inl hctx
    | some ctx =>
      have hq := hconf (by omega)
      refine .inr (.inr (.inr fun k hk hcheck => ?_))
      have hport := (h _ (onePort_solves hk)).1 0 _ (onePort_returned hq hctx hon hcheck)
      rw [htons_htons] at hport
      exact hport
  · exact .inr (.inl (by simpa using hon))

/-- `ff_rss_adjust_sport6` agrees with the check that its caller relies on where it is not used, and
where the hash does not see the difference between the two flows. -/
theorem sport6Right_iff {sys : RssSys} {port_id : ℕ}
    (hconf : 1 < sys.conf.nb_queue_list port_id → QueueConf sys.conf port_id)
    (faddr6 laddr6 : In6Addr) (fport : UInt16) :
    Sport6Right sys port_id faddr6 laddr6 fport ↔ Sport6Ok sys port_id faddr6 laddr6 fport :=
  ⟨.of_right hconf, Sport6Ok.right hconf⟩

/-- Two queues with a table of 128 entries. -/
def twoQueueSys6 : RssSys where
  conf := twoQueueConf
  enable := true
  recheck := true
  thash_adjust := true
  thash _ := some ⟨40, keyBytes defaultRsskey40bytes, 7⟩
  adjust _ _ _ := none

/-- `2001:db8::n`. -/
def docAddr (n : UInt8) : In6Addr := fun i =>
  [0x20, 0x01, 0x0d, 0xb8, 0, 0, 0, 0, 0, 0, 0, 0, 0, 0, 0, n].getD i.val 0

theorem twoQueueSys6_conf : QueueConf twoQueueSys6.conf 0 :=
  ⟨⟨7, rfl⟩, by decide, by decide, by decide, by decide, by decide⟩

theorem not_sport6Ok_port6 : ¬ Sport6Ok twoQueueSys6 0 (docAddr 1) (docAddr 2) 0x5000 := by
  rintro (h | h | h | h)
  · cases h
  · cases h
  · exact absurd h (by decide)
  · exact absurd (h 6 (by decide) (by decide +kernel)) (by decide +kernel)

theorem sport6Right_iff_twoQueues :
    Sport6Right twoQueueSys6 0 (docAddr 1) (docAddr 2) 0x5000 ↔
      Sport6Ok twoQueueSys6 0 (docAddr 1) (docAddr 2) 0x5000 :=
  sport6Right_iff (fun _ => twoQueueSys6_conf) _ _ _

/-- From `2001:db8::1` port 80, with the default key: port 6 is solved for on the remote side, and
the packets for the port that is bound go to the other queue. -/
theorem not_sport6Right_port6 : ¬ Sport6Right twoQueueSys6 0 (docAddr 1) (docAddr 2) 0x5000 :=
  fun h => not_sport6Ok_port6 (.of_right (fun _ => twoQueueSys6_conf) h)

end FStack.Analysis
