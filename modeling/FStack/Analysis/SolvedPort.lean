import FStack.Analysis.PcbLportContract

/-!
# The solved port

`ff_rss_adjust_sport` looks for a port in a block that begins at a multiple of the table size, and
leaves the low bits to `rte_thash_adjust_tuple`.  The port lies in the range of the call and its
packets come back to the process's queue, and the numbers on the way are what they would be without
overflow, in every call that gets past the comparison of the block with the range
(`ffRssAdjustSport_contract`).  The comparison is needed: behind the last block below 65536 the
aligned base wraps to 0.
-/

set_option autoImplicit false

namespace FStack.Analysis

open FStack.Model

variable {first last desired base : ℕ} {conf : RssConf}
variable {k tries : ℕ} {ctx : ThashCtx} {saddr daddr : UInt32} {dport : UInt16}

/-- A port with a table of at least two entries, a power of two, and this process's queue among at
most as many. -/
structure QueueConf (conf : RssConf) (port_id : ℕ) : Prop where
  power : ∃ k, conf.rss_reta_size port_id = 2 ^ k
  two_le : 2 ≤ conf.rss_reta_size port_id
  reta_lt : conf.rss_reta_size port_id < 65536
  queues : 2 ≤ conf.nb_queue_list port_id
  queue_lt : conf.tx_queue_id port_id < conf.nb_queue_list port_id
  queues_le : conf.nb_queue_list port_id ≤ conf.rss_reta_size port_id

/-- What `rte_thash_adjust_tuple` does on success to a tuple of 12 bytes: it changes the last two
alone, and the hash of `ff_rss_check` then ends in the requested value. -/
def SolvesTuple (sys : RssSys) (port_id : ℕ) : Prop :=
  ∀ ctx tuple desired out, sys.thash port_id = some ctx → tuple.length = 12 →
    sys.adjust ctx tuple desired = some out →
    out.length = 12 ∧ out.take 10 = tuple.take 10 ∧
      (toeplitzHash sys.conf.rsskey_len sys.conf.rsskey out).toNat %
          sys.conf.rss_reta_size port_id =
        desired % sys.conf.rss_reta_size port_id

/-- A block that begins at `base` lies in the range: `base < first` is false, and so is
`base + reta_size - 1 > last`. -/
def InRange (first last reta_size base : ℕ) : Prop := first ≤ base ∧ base + reta_size - 1 ≤ last

/-- The values between the arguments and the request for a port are exact: they fit the types that
the code holds them in. -/
structure SportExact (first last reta_size nb_queues queueid r1 r2 : ℕ) : Prop where
  base : alignedBase first reta_size = (first + reta_size - 1) / reta_size * reta_size
  nblocks : (last - alignedBase first reta_size + 1) / reta_size < 2 ^ 16
  block : InRange first last reta_size (alignedBase first reta_size +
    r1 % ((last - alignedBase first reta_size + 1) / reta_size) * reta_size)
  desired : queueid + r2 % ((reta_size + nb_queues - 1) / nb_queues) * nb_queues < 2 ^ 32
  next : reta_size + nb_queues < 2 ^ 32

/-! ## The aligned base -/

theorem and_not_mask_toNat (x : BitVec 32) (hk : 2 ^ k < 2 ^ 32) :
    (x &&& ~~~ (BitVec.ofNat 32 (2 ^ k) - 1)).toNat = x.toNat / 2 ^ k * 2 ^ k := by
  have hmask : BitVec.ofNat 32 (2 ^ k) - 1 = BitVec.ofNat 32 (2 ^ k - 1) := by
    have hpos : 0 < 2 ^ k := Nat.two_pow_pos k
    have hone : (1 : BitVec 32).toNat = 1 := rfl
    apply BitVec.eq_of_toNat_eq
    rw [BitVec.toNat_sub, BitVec.toNat_ofNat, BitVec.toNat_ofNat, hone]
    omega
  have hshift : x &&& ~~~ BitVec.ofNat 32 (2 ^ k - 1) = x >>> k <<< k := by
    ext i hi
    have hbit : (BitVec.ofNat 32 (2 ^ k - 1))[i] = decide (i < k) := by
      rw [← BitVec.getLsbD_eq_getElem hi, BitVec.getLsbD_ofNat, Nat.testBit_two_pow_sub_one]
      simp [hi]
    rw [BitVec.getElem_and, BitVec.getElem_not, BitVec.getElem_shiftLeft, hbit]
    by_cases hik : i < k
    · simp [hik]
    · simp [hik, show k + (i - k) = i by omega, BitVec.getLsbD_eq_getElem hi]
  rw [hmask, hshift, BitVec.toNat_shiftLeft, BitVec.toNat_ushiftRight, Nat.shiftLeft_eq,
    Nat.shiftRight_eq_div_pow]
  have hle : x.toNat / 2 ^ k * 2 ^ k ≤ x.toNat := Nat.div_mul_le_self _ _
  exact Nat.mod_eq_of_lt (hle.trans_lt x.isLt)

/-- INTERNAL: the aligned base, before and after it is stored in 16 bits. -/
theorem alignedBase_eq (hfirst : first < 65536) (hk : 2 ^ k < 65536) :
    alignedBase first (2 ^ k) = (first + 2 ^ k - 1) / 2 ^ k * 2 ^ k % 65536 := by
  have hpos : 0 < 2 ^ k := Nat.two_pow_pos k
  have hsum : (BitVec.ofNat 32 first + BitVec.ofNat 32 (2 ^ k) - 1).toNat = first + 2 ^ k - 1 := by
    have hone : (1 : BitVec 32).toNat = 1 := rfl
    rw [BitVec.toNat_sub, BitVec.toNat_add, BitVec.toNat_ofNat, BitVec.toNat_ofNat, hone]
    omega
  rw [alignedBase, and_not_mask_toNat _ (by omega), hsum]

section Call

variable {sys : RssSys} {port_id : ℕ}

/-- INTERNAL: behind the comparison nothing has wrapped. -/
theorem sportExact (hconf : QueueConf conf port_id) (hfirst : first < 65536) (hlast : last < 65536)
    (hrange : InRange first last (conf.rss_reta_size port_id)
      (alignedBase first (conf.rss_reta_size port_id))) (r1 r2 : ℕ) :
    SportExact first last (conf.rss_reta_size port_id) (conf.nb_queue_list port_id)
      (conf.tx_queue_id port_id) r1 r2 := by
  obtain ⟨⟨k, hk⟩, htwo, hlt, hqueues, hqueue, hle⟩ := hconf
  rw [hk] at htwo hlt hle hrange ⊢
  generalize conf.nb_queue_list port_id = nb at *
  generalize conf.tx_queue_id port_id = q at *
  have hbase := alignedBase_eq hfirst hlt
  generalize 2 ^ k = reta at *
  obtain ⟨hge, hend⟩ := hrange
  have hup : (first + reta - 1) / reta * reta ≤ first + reta - 1 := Nat.div_mul_le_self _ _
  have hfull : 0 < (last - alignedBase first reta + 1) / reta := Nat.div_pos (by omega) (by omega)
  have hrounds : 0 < (reta + nb - 1) / nb := Nat.div_pos (by omega) (by omega)
  refine ⟨by omega, ?_, ⟨by omega, ?_⟩, ?_, by omega⟩
  · have hhalf : (last - alignedBase first reta + 1) / reta ≤
        (last - alignedBase first reta + 1) / 2 := Nat.div_le_div_left htwo (by omega)
    omega
  · have hblock : (r1 % ((last - alignedBase first reta + 1) / reta) + 1) * reta ≤
        last - alignedBase first reta + 1 := calc
      _ ≤ (last - alignedBase first reta + 1) / reta * reta :=
        Nat.mul_le_mul_right _ (Nat.mod_lt _ hfull)
      _ ≤ last - alignedBase first reta + 1 := Nat.div_mul_le_self _ _
    rw [Nat.add_mul, Nat.one_mul] at hblock
    omega
  · have hround : (r2 % ((reta + nb - 1) / nb) + 1) * nb ≤ reta + nb - 1 := calc
      _ ≤ (reta + nb - 1) / nb * nb := Nat.mul_le_mul_right _ (Nat.mod_lt _ hrounds)
      _ ≤ reta + nb - 1 := Nat.div_mul_le_self _ _
    rw [Nat.add_mul, Nat.one_mul] at hround
    omega

/-- A value that the hash of a packet for this process's queue can end in. -/
def ForQueue (conf : RssConf) (port_id desired : ℕ) : Prop :=
  desired < conf.rss_reta_size port_id ∧
    desired % conf.nb_queue_list port_id = conf.tx_queue_id port_id

theorem ForQueue.reset (hconf : QueueConf conf port_id)
    (h : desired % conf.nb_queue_list port_id = conf.tx_queue_id port_id) :
    ForQueue conf port_id (if conf.rss_reta_size port_id ≤ desired then conf.tx_queue_id port_id
      else desired) := by
  have h₁ := hconf.queue_lt
  have h₂ := hconf.queues_le
  split
  · exact ⟨by omega, Nat.mod_eq_of_lt h₁⟩
  · exact ⟨by omega, h⟩

theorem ForQueue.mask (hconf : QueueConf conf port_id) (h : ForQueue conf port_id desired) :
    desired &&& (conf.rss_reta_size port_id - 1) = desired := by
  obtain ⟨k, hk⟩ := hconf.power
  have hlt := h.1
  rw [hk] at hlt ⊢
  rw [Nat.and_two_pow_sub_one_eq_mod, Nat.mod_eq_of_lt hlt]

/-- INTERNAL: the solver's loop returns a port of the range and of the queue.
SOURCE: lib/ff_dpdk_if.c:3323-3407 -/
theorem adjustLoop_solved (hconf : QueueConf sys.conf port_id) (hadj : SolvesTuple sys port_id)
    (hctx : sys.thash port_id = some ctx) {port : ℕ}
    (hdes : desired % sys.conf.nb_queue_list port_id = sys.conf.tx_queue_id port_id)
    (h : adjustLoop sys ctx port_id saddr daddr dport first last base tries desired = some port) :
    first ≤ port ∧ port ≤ last ∧
      ffRssCheck sys.conf port_id saddr daddr dport (htons (UInt16.ofNat port)) = true := by
  induction tries generalizing desired with
  | zero => cases h
  | succ tries ih =>
    rw [adjustLoop] at h
    dsimp only at h
    have hreset := ForQueue.reset hconf hdes
    generalize (if sys.conf.rss_reta_size port_id ≤ desired then sys.conf.tx_queue_id port_id
      else desired) = d at h hreset
    have hnext : (d + sys.conf.nb_queue_list port_id) % sys.conf.nb_queue_list port_id =
        sys.conf.tx_queue_id port_id := by
      rw [Nat.add_mod_right]
      exact hreset.2
    rw [hreset.mask hconf] at h
    cases hout : sys.adjust ctx (replyTuple saddr daddr dport base) d with
    | none =>
      rw [hout] at h
      exact ih hnext h
    | some out =>
      rw [hout] at h
      dsimp only at h
      split at h
      · exact ih hnext h
      next hrange =>
        split at h
        next =>
          cases h
          obtain ⟨hlen, htake, hhash⟩ := hadj ctx _ _ out hctx rfl hout
          have hqueues := hconf.queues
          obtain ⟨k, hk⟩ := hconf.power
          refine ⟨by omega, by omega, ?_⟩
          rw [ffRssCheck, if_neg (by omega)]
          dsimp only
          rw [← reply_eq_of_take hlen htake]
          rw [Nat.mod_eq_of_lt hreset.1, hk] at hhash
          exact landsOnQueue_of_mod hk hconf.reta_lt hhash hreset.2
        next => exact ih hnext h

/-- INTERNAL: the loop asks for values of the queue only. -/
theorem adjustLoop_congr (hconf : QueueConf sys.conf port_id)
    {adjust : ThashCtx → List UInt8 → ℕ → Option (List UInt8)}
    (hsame : ∀ d, ForQueue sys.conf port_id d →
      adjust ctx (replyTuple saddr daddr dport base) d =
        sys.adjust ctx (replyTuple saddr daddr dport base) d)
    (hdes : desired % sys.conf.nb_queue_list port_id = sys.conf.tx_queue_id port_id) :
    adjustLoop { sys with adjust := adjust } ctx port_id saddr daddr dport first last base tries
        desired =
      adjustLoop sys ctx port_id saddr daddr dport first last base tries desired := by
  induction tries generalizing desired with
  | zero => rfl
  | succ tries ih =>
    rw [adjustLoop, adjustLoop]
    dsimp only
    have hreset := ForQueue.reset hconf hdes
    generalize (if sys.conf.rss_reta_size port_id ≤ desired then sys.conf.tx_queue_id port_id
      else desired) = d at hreset ⊢
    have hnext : (d + sys.conf.nb_queue_list port_id) % sys.conf.nb_queue_list port_id =
        sys.conf.tx_queue_id port_id := by
      rw [Nat.add_mod_right]
      exact hreset.2
    rw [hreset.mask hconf, hsame d hreset]
    cases sys.adjust ctx (replyTuple saddr daddr dport base) d with
    | none => exact ih hnext
    | some out =>
      dsimp only
      rw [ih hnext]

theorem startDesired_mod (hconf : QueueConf sys.conf port_id) (r2 : ℕ) :
    (if sys.conf.rss_reta_size port_id ≤ sys.conf.tx_queue_id port_id +
        r2 % ((sys.conf.rss_reta_size port_id + sys.conf.nb_queue_list port_id - 1) /
          sys.conf.nb_queue_list port_id) * sys.conf.nb_queue_list port_id
      then sys.conf.tx_queue_id port_id
      else sys.conf.tx_queue_id port_id +
        r2 % ((sys.conf.rss_reta_size port_id + sys.conf.nb_queue_list port_id - 1) /
          sys.conf.nb_queue_list port_id) * sys.conf.nb_queue_list port_id) %
      sys.conf.nb_queue_list port_id = sys.conf.tx_queue_id port_id := by
  split
  · exact Nat.mod_eq_of_lt hconf.queue_lt
  · rw [Nat.add_mul_mod_self_right]
    exact Nat.mod_eq_of_lt hconf.queue_lt

theorem not_inRange_iff {reta_size : ℕ} (hreta : 0 < reta_size) :
    (base < first ∨ reta_size = 0 ∨ last < base + reta_size - 1) ↔
      ¬ InRange first last reta_size base := by
  unfold InRange
  omega

/-- `ff_rss_adjust_sport` returns a port of the range whose packets come back to this process's
queue.  A block that is not in the range is refused; where it is, no value on the way wraps, and the
requests are for blocks of the range and for values of the queue. -/
theorem ffRssAdjustSport_contract (hconf : QueueConf sys.conf port_id)
    (hadj : SolvesTuple sys port_id) (saddr daddr : UInt32) (dport : UInt16) {first last : ℕ}
    (hfirst : first < 65536) (hlast : last < 65536) (r1 r2 : ℕ) :
    (∀ port, ffRssAdjustSport sys port_id saddr daddr dport first last r1 r2 = some port →
      first ≤ port ∧ port ≤ last ∧
        ffRssCheck sys.conf port_id saddr daddr dport (htons (UInt16.ofNat port)) = true) ∧
    (¬ InRange first last (sys.conf.rss_reta_size port_id)
        (alignedBase first (sys.conf.rss_reta_size port_id)) →
      ffRssAdjustSport sys port_id saddr daddr dport first last r1 r2 = none) ∧
    (InRange first last (sys.conf.rss_reta_size port_id)
        (alignedBase first (sys.conf.rss_reta_size port_id)) →
      SportExact first last (sys.conf.rss_reta_size port_id) (sys.conf.nb_queue_list port_id)
        (sys.conf.tx_queue_id port_id) r1 r2) ∧
    ∀ adjust : ThashCtx → List UInt8 → ℕ → Option (List UInt8),
      (∀ ctx base desired, InRange first last (sys.conf.rss_reta_size port_id) base →
        ForQueue sys.conf port_id desired →
        adjust ctx (replyTuple saddr daddr dport base) desired =
          sys.adjust ctx (replyTuple saddr daddr dport base) desired) →
      ffRssAdjustSport { sys with adjust := adjust } port_id saddr daddr dport first last r1 r2 =
        ffRssAdjustSport sys port_id saddr daddr dport first last r1 r2 := by
  have hreta : 0 < sys.conf.rss_reta_size port_id := by
    have := hconf.two_le
    omega
  refine ⟨fun port h => ?_, fun hout => ?_,
    fun hrange => sportExact hconf hfirst hlast hrange r1 r2, fun adjust hsame => ?_⟩
  · unfold ffRssAdjustSport at h
    cases hctx : sys.thash port_id with
    | none => simp [hctx] at h
    | some ctx =>
      rw [hctx] at h
      dsimp only at h
      split at h
      · cases h
      split at h
      · cases h
      split at h
      · cases h
      split at h
      · cases h
      split at h
      · cases h
      exact adjustLoop_solved hconf hadj hctx (startDesired_mod hconf r2) h
  · unfold ffRssAdjustSport
    cases sys.thash port_id with
    | none => rfl
    | some ctx =>
      dsimp only
      rw [if_pos ((not_inRange_iff hreta).mpr hout)]
      split_ifs <;> rfl
  · unfold ffRssAdjustSport
    cases sys.thash port_id with
    | none => rfl
    | some ctx =>
      dsimp only
      split
      · rfl
      split
      · rfl
      split
      · rfl
      split
      · rfl
      next hguard =>
        split
        · rfl
        have hrange := not_not.mp fun h => hguard ((not_inRange_iff hreta).mpr h)
        have hexact := sportExact hconf hfirst hlast hrange r1 r2
        refine adjustLoop_congr hconf (fun d hd => hsame ctx _ d ?_ hd) (startDesired_mod hconf r2)
        have hblock := hexact.block
        have hend := hblock.2
        rw [Nat.mod_eq_of_lt (show _ < 65536 from hexact.nblocks), Nat.mod_eq_of_lt (by omega)]
        exact hblock

end Call

theorem searchAdjust_solves : SolvesTuple solverSys 0 := by
  intro ctx tuple desired out hctx hlen hout
  cases hctx
  exact searchAdjust_spec _ tuple desired out hlen hout

theorem ffRssAdjustSport_contract_solver :
    ffRssAdjustSport solverSys 0 lanCall.faddr lanCall.laddr lanCall.fport 10000 65535 0 0 =
        some 10001 ∧
      ffRssCheck solverSys.conf 0 lanCall.faddr lanCall.laddr lanCall.fport
        (htons (UInt16.ofNat 10001)) = true := by
  have hret : ffRssAdjustSport solverSys 0 lanCall.faddr lanCall.laddr lanCall.fport 10000 65535 0
      0 = some 10001 := by decide
  have hconf : QueueConf solverSys.conf 0 :=
    ⟨⟨2, rfl⟩, by decide, by decide, by decide, by decide, by decide⟩
  have hcontract := ffRssAdjustSport_contract hconf searchAdjust_solves lanCall.faddr lanCall.laddr
    lanCall.fport (show 10000 < 65536 by omega) (show 65535 < 65536 by omega) 0 0
  exact ⟨hret, (hcontract.1 10001 hret).2.2⟩

/-- Behind the last multiple of the table size below 65536 there is no block: the base of a range
from 65000 on is 0 in 16 bits. -/
theorem not_sportExact_lastBlock : ¬ SportExact 65000 65535 1024 2 0 0 0 := by
  intro h
  exact absurd h.base (by decide)

end FStack.Analysis
