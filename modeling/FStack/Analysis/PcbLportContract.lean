import FStack.Model.PcbLport
import FStack.Analysis.PortRange

/-!
# The port that a connection gets

A port chosen by `in_pcb_lport_dest` must lie in the range of the call, must be unused,
and packets for it must come back to this process's queue.  The scan gives all three.
The table gives the ports of the range of the first call only, because its range is set
once (`static int rss_tbl_init`), and their queue on the port that was configured for the
entry.  The solver gives the queue under the key of its own context.

`inPcbLportDest_contract` says so for every call of every run: `CallReady` is what the
call needs, in terms of the configuration, the ranges and the keys.
-/

set_option autoImplicit false

namespace FStack.Analysis

open FStack.Model FStack.Prelude

variable {port : ℕ} {conf : RssConf} {c : LportCall}
variable {used : ℕ → Bool} {t' : RssTbl UInt32} {ins : List (RssTuple UInt32)} {r : PortRange} {sc : Bool}
  {cfgs : List RssTblCfg} {pre : List LportCall} {cfg : RssTuple UInt32}

/-- What a caller of `in_pcb_lport_dest` is owed when it returns 0. -/
def LportContract (sys : RssSys) (c : LportCall) (port : ℕ) : Prop :=
  c.first ≤ port ∧ port ≤ c.last ∧ c.used port = false ∧
    ∀ port_id, c.ifp = some (.veth port_id) →
      ffRssCheck sys.conf port_id c.faddr c.laddr c.fport (htons (UInt16.ofNat port)) = true

theorem LportCall.first_le_last (c : LportCall) : c.first ≤ c.last := by
  unfold LportCall.first LportCall.last
  split <;> omega

/-- The scan chooses a port of the range that is unused and accepted.
SOURCE: freebsd/netinet/in_pcb.c:992-1098 -/
theorem scanLoop_some {accept : ℕ → Bool} {first last : ℕ} (hle : first ≤ last) (rounds : ℕ) (start : ℕ)
    (h : (scanLoop used accept first last rounds start).2 = some port) :
    first ≤ port ∧ port ≤ last ∧ used port = false ∧ accept port = true := by
  induction rounds generalizing start with
  | zero => simp [scanLoop] at h
  | succ rounds ih =>
    simp only [scanLoop] at h
    generalize hp : (if (start + 1) % 65536 < first ∨ last < (start + 1) % 65536 then first
      else (start + 1) % 65536) = p at h
    by_cases hok : used p = false ∧ accept p = true
    · rw [if_pos hok] at h
      cases h
      refine ⟨?_, ?_, hok.1, hok.2⟩
      · rw [← hp]
        split <;> omega
      · rw [← hp]
        split <;> omega
    · rw [if_neg hok] at h
      exact ih p h

/-- The table loop chooses an unused port at one of the selected indices.
SOURCE: freebsd/netinet/in_pcb.c:992-1098 -/
theorem tableLoop_some {rss_first rss_last : ℕ} (hpos : 1 ≤ rss_first) (hle : rss_first ≤ rss_last) (dport : ℕ → ℕ)
    (rounds : ℕ) (cursor : ℕ) (h : (tableLoop used rss_first rss_last dport rounds cursor).2 = some port) :
    (∃ k, rss_first ≤ k ∧ k ≤ rss_last ∧ dport k = port) ∧ used port = false := by
  induction rounds generalizing cursor with
  | zero => simp [tableLoop] at h
  | succ rounds ih =>
    simp only [tableLoop] at h
    generalize hk : (if (cursor + 1) % 65536 < rss_first ∨ rss_last < (cursor + 1) % 65536
      then rss_first else (cursor + 1) % 65536) = k at h
    have hrange : rss_first ≤ k ∧ k ≤ rss_last := by
      rw [← hk]
      split <;> omega
    rw [Function.update_of_ne (by omega)] at h
    by_cases hused : used (dport k) = true
    · rw [if_pos hused] at h
      exact ih k h
    · rw [if_neg hused] at h
      cases h
      exact ⟨⟨k, hrange.1, hrange.2, rfl⟩, by simpa using hused⟩

/-- What the documentation of `rte_thash_adjust_tuple` promises on success: of a tuple of 12 bytes
the last two may change, and the hash under the context's key ends in the desired bits. -/
def AdjustTupleSpec (adjust : ThashCtx → List UInt8 → ℕ → Option (List UInt8)) : Prop :=
  ∀ ctx tuple desired out, tuple.length = 12 → adjust ctx tuple desired = some out →
    out.length = 12 ∧ out.take 10 = tuple.take 10 ∧
      (toeplitzHash ctx.key_len ctx.key out).toNat % 2 ^ ctx.reta_sz_log =
        desired % 2 ^ ctx.reta_sz_log

/-- The solver's context agrees with the software check on the port: the first 16 key bytes are
the same, the table size is a power of two and the one the context was made for, and the queue is
one of the table's. -/
structure ThashAgrees (conf : RssConf) (port_id : ℕ) (ctx : ThashCtx) : Prop where
  ctx_len : 16 ≤ ctx.key_len
  key_len : 16 ≤ conf.rsskey_len
  key_eq : ∀ n < 16, ctx.key n = conf.rsskey n
  reta_eq : conf.rss_reta_size port_id = 2 ^ ctx.reta_sz_log
  reta_lt : conf.rss_reta_size port_id < 65536
  queue_lt : conf.tx_queue_id port_id < conf.nb_queue_list port_id
  queue_lt_reta : conf.tx_queue_id port_id < conf.rss_reta_size port_id

theorem ThashAgrees.hash_eq {port_id : ℕ} {ctx : ThashCtx} (h : ThashAgrees conf port_id ctx) {data : List UInt8}
    (hdata : data.length = 12) :
    toeplitzHash ctx.key_len ctx.key data = toeplitzHash conf.rsskey_len conf.rsskey data := by
  have h1 := h.ctx_len
  have h2 := h.key_len
  apply toeplitzHash_congr (by omega)
  intro n hn
  have hbyte : n / 8 < 16 := by omega
  rw [hashKeyBit, hashKeyBit, keyBit, keyBit, h.key_eq _ hbyte, decide_eq_true (by omega),
    decide_eq_true (by omega)]

/-- The bytes of a port that was read from two bytes. -/
theorem bytes16_htons (a b : UInt8) :
    bytes16 (htons (UInt16.ofNat (a.toNat * 256 + b.toNat))) = [a, b] := by
  have ha := a.toNat_lt
  have hb := b.toNat_lt
  have h1 : (UInt16.ofNat (a.toNat * 256 + b.toNat)).toNat = a.toNat * 256 + b.toNat := by
    rw [UInt16.toNat_ofNat']
    omega
  have hdiv : ∀ m n : ℕ, n < 256 → (m * 256 + n) / 256 = m ∧ (m * 256 + n) % 256 = n := by
    intro m n hn
    omega
  have h2 : (htons (UInt16.ofNat (a.toNat * 256 + b.toNat))).toNat = b.toNat * 256 + a.toNat := by
    rw [htons, h1, UInt16.toNat_ofNat', (hdiv _ _ hb).1, (hdiv _ _ hb).2]
    omega
  rw [bytes16, h2]
  congr 1
  · rw [← UInt8.toNat_inj, UInt8.toNat_ofNat']
    omega
  · congr 1
    rw [← UInt8.toNat_inj, UInt8.toNat_ofNat', (hdiv _ _ ha).1]
    omega

/-- A tuple whose first ten bytes are those of a reply is the data that the check hashes
for the port in its last two. -/
theorem reply_eq_of_take {out : List UInt8} {saddr daddr : UInt32} {dport : UInt16} {base : ℕ}
    (hlen : out.length = 12) (htake : out.take 10 = (replyTuple saddr daddr dport base).take 10) :
    out = bytes32 saddr ++ bytes32 daddr ++ bytes16 dport ++
      bytes16 (htons (UInt16.ofNat (tuplePort out))) := by
  have hhead : out.take 10 = bytes32 saddr ++ bytes32 daddr ++ bytes16 dport := by
    rw [htake, replyTuple]
    exact List.take_left' rfl
  have h10 : 10 < out.length := by omega
  have h11 : 11 < out.length := by omega
  have htail : out.drop 10 = [out[10], out[11]] := by
    rw [List.drop_eq_getElem_cons h10, List.drop_eq_getElem_cons h11,
      List.drop_eq_nil_of_le (by omega)]
  have hport : tuplePort out = out[10].toNat * 256 + out[11].toNat := by
    rw [tuplePort, List.getD_eq_getElem?_getD, List.getD_eq_getElem?_getD,
      List.getElem?_eq_getElem h10, List.getElem?_eq_getElem h11, Option.getD_some, Option.getD_some]
  calc out = out.take 10 ++ out.drop 10 := (List.take_append_drop 10 out).symm
    _ = _ := by rw [hhead, htail, hport, bytes16_htons]

/-- The low bits of the hash decide the queue when the table size is a power of two. -/
theorem landsOnQueue_of_mod {port_id k desired : ℕ} {hash : BitVec 32} (hreta : conf.rss_reta_size port_id = 2 ^ k)
    (hlt : conf.rss_reta_size port_id < 65536) (hhash : hash.toNat % 2 ^ k = desired)
    (hqueue : desired % conf.nb_queue_list port_id = conf.tx_queue_id port_id) :
    landsOnQueue conf port_id hash = true := by
  have hk : 2 ^ k < 65536 := by rwa [← hreta]
  have hpos : 0 < 2 ^ k := Nat.two_pow_pos k
  have hmask : (BitVec.ofNat 32 (2 ^ k) - 1).toNat = 2 ^ k - 1 := by
    have hone : (1 : BitVec 32).toNat = 1 := rfl
    rw [BitVec.toNat_sub, BitVec.toNat_ofNat, hone]
    omega
  rw [landsOnQueue, hreta, BitVec.toNat_and, hmask, Nat.and_two_pow_sub_one_eq_mod, hhash, hqueue]
  exact beq_self_eq_true _

section Solver

variable {sys : RssSys} {ctx : ThashCtx} {port_id : ℕ} {saddr daddr : UInt32} {dport : UInt16}
  {first last : ℕ}

/-- The solver's loop returns a port of the range, on this process's queue if it was
checked again or if the context agrees with the check.
SOURCE: lib/ff_dpdk_if.c:3323-3407 -/
theorem adjustLoop_some (hadj : AdjustTupleSpec sys.adjust) (hnb : 1 < sys.conf.nb_queue_list port_id)
    (base tries desired : ℕ) (hdes : ThashAgrees sys.conf port_id ctx →
      desired % sys.conf.nb_queue_list port_id = sys.conf.tx_queue_id port_id)
    (h : adjustLoop sys ctx port_id saddr daddr dport first last base tries desired = some port) :
    first ≤ port ∧ port ≤ last ∧ (sys.recheck = true ∨ ThashAgrees sys.conf port_id ctx →
      ffRssCheck sys.conf port_id saddr daddr dport (htons (UInt16.ofNat port)) = true) := by
  induction tries generalizing desired with
  | zero => simp [adjustLoop] at h
  | succ tries ih =>
    simp only [adjustLoop] at h
    generalize hd : (if sys.conf.rss_reta_size port_id ≤ desired then sys.conf.tx_queue_id port_id
      else desired) = d at h
    have hd1 : ThashAgrees sys.conf port_id ctx →
        d % sys.conf.nb_queue_list port_id = sys.conf.tx_queue_id port_id := by
      intro hag
      rw [← hd]
      split
      · exact Nat.mod_eq_of_lt hag.queue_lt
      · exact hdes hag
    have hd2 : ThashAgrees sys.conf port_id ctx → d < sys.conf.rss_reta_size port_id := by
      intro hag
      have := hag.queue_lt_reta
      rw [← hd]
      split <;> omega
    have hnext : ThashAgrees sys.conf port_id ctx →
        (d + sys.conf.nb_queue_list port_id) % sys.conf.nb_queue_list port_id =
          sys.conf.tx_queue_id port_id := by
      intro hag
      rw [Nat.add_mod_right]
      exact hd1 hag
    cases hout : sys.adjust ctx (replyTuple saddr daddr dport base)
        (d &&& (sys.conf.rss_reta_size port_id - 1)) with
    | none =>
      simp only [hout] at h
      exact ih _ hnext h
    | some out =>
      simp only [hout] at h
      by_cases hrange : tuplePort out < first ∨ last < tuplePort out
      · rw [if_pos hrange] at h
        exact ih _ hnext h
      rw [if_neg hrange] at h
      by_cases hcheck : sys.recheck = false ∨
          ffRssCheck sys.conf port_id saddr daddr dport (htons (UInt16.ofNat (tuplePort out))) = true
      · rw [if_pos hcheck] at h
        cases h
        refine ⟨by omega, by omega, ?_⟩
        rintro (hre | hag)
        · rw [hre] at hcheck
          exact hcheck.resolve_left (by simp)
        · obtain ⟨hlen, htake, hhash⟩ := hadj ctx _ _ out rfl hout
          rw [ffRssCheck, if_neg (by omega)]
          dsimp only
          rw [← reply_eq_of_take hlen htake, ← hag.hash_eq hlen]
          apply landsOnQueue_of_mod hag.reta_eq hag.reta_lt hhash
          have hlt := hd2 hag
          rw [hag.reta_eq] at hlt
          rw [hag.reta_eq, Nat.and_two_pow_sub_one_eq_mod, Nat.mod_mod, Nat.mod_eq_of_lt hlt]
          exact hd1 hag
      · rw [if_neg hcheck] at h
        exact ih _ hnext h

/-- What `ff_rss_adjust_sport` returns.
SOURCE: lib/ff_dpdk_if.c:3250-3411 -/
theorem ffRssAdjustSport_some (hadj : AdjustTupleSpec sys.adjust) {r1 r2 : ℕ}
    (h : ffRssAdjustSport sys port_id saddr daddr dport first last r1 r2 = some port) :
    first ≤ port ∧ port ≤ last ∧ sys.thash_adjust = true ∧ 1 < sys.conf.nb_queue_list port_id ∧
      ∃ ctx, sys.thash port_id = some ctx ∧
        (sys.recheck = true ∨ ThashAgrees sys.conf port_id ctx →
          ffRssCheck sys.conf port_id saddr daddr dport (htons (UInt16.ofNat port)) = true) := by
  unfold ffRssAdjustSport at h
  cases hctx : sys.thash port_id with
  | none => simp [hctx] at h
  | some ctx =>
    simp only [hctx] at h
    split at h
    · cases h
    next hadjust =>
    split at h
    · cases h
    next hnb =>
    split at h
    · cases h
    split at h
    · cases h
    split at h
    · cases h
    have hres := adjustLoop_some hadj (by omega) _ _ _ ?_ h
    · obtain ⟨h1, h2, h3⟩ := hres
      exact ⟨h1, h2, by simpa using hadjust, by omega, ctx, rfl, h3⟩
    · intro hag
      split
      · exact Nat.mod_eq_of_lt hag.queue_lt
      · rw [Nat.add_mul_mod_self_right]
        exact Nat.mod_eq_of_lt hag.queue_lt

end Solver

/-- The eight attempts return an unused port that the solver gave. -/
theorem fastLoop_some {sys : RssSys} {port_id : ℕ} (n : ℕ) (h : fastLoop sys c port_id n = some port) :
    c.used port = false ∧ ∃ r1 r2,
      ffRssAdjustSport sys port_id c.faddr c.laddr c.fport c.first c.last r1 r2 = some port := by
  induction n with
  | zero => simp [fastLoop] at h
  | succ n ih =>
    rw [fastLoop] at h
    split at h
    · cases h
    next p hp =>
    by_cases hused : c.used p = true
    · rw [if_pos hused] at h
      exact ih h
    · rw [if_neg hused] at h
      cases h
      exact ⟨by simpa using hused, _, _, hp⟩

section Run

/-- The second table is the first one up to the cursors in `dport[0]`. -/
structure SameTbl (t t' : RssTbl UInt32) : Prop where
  saddr : ∀ i, (t' i).saddr = (t i).saddr
  sport : ∀ i, (t' i).sport = (t i).sport
  daddr : ∀ i j, ((t' i).dip_tbl j).daddr = ((t i).dip_tbl j).daddr
  first_idx : ∀ i j, ((t' i).dip_tbl j).first_idx = ((t i).dip_tbl j).first_idx
  last_idx : ∀ i j, ((t' i).dip_tbl j).last_idx = ((t i).dip_tbl j).last_idx
  dport : ∀ i j k, k ≠ 0 → ((t' i).dip_tbl j).dport k = ((t i).dip_tbl j).dport k

theorem SameTbl.refl (t : RssTbl UInt32) : SameTbl t t :=
  ⟨fun _ => rfl, fun _ => rfl, fun _ _ => rfl, fun _ _ => rfl, fun _ _ => rfl, fun _ _ _ _ => rfl⟩

theorem SameTbl.trans {t t'' : RssTbl UInt32} (h : SameTbl t t') (h' : SameTbl t' t'') :
    SameTbl t t'' where
  saddr i := (h'.saddr i).trans (h.saddr i)
  sport i := (h'.sport i).trans (h.sport i)
  daddr i j := (h'.daddr i j).trans (h.daddr i j)
  first_idx i j := (h'.first_idx i j).trans (h.first_idx i j)
  last_idx i j := (h'.last_idx i j).trans (h.last_idx i j)
  dport i j k hk := (h'.dport i j k hk).trans (h.dport i j k hk)

/-- Moving a cursor leaves the table the same. -/
theorem SameTbl.setCursor (t : RssTbl UInt32) (i : Fin 16) (j : Fin 4) (cursor : ℕ) :
    SameTbl t (setDip t i j { (t i).dip_tbl j with
      dport := Function.update ((t i).dip_tbl j).dport 0 cursor }) := by
  have hdip : ∀ i' j', (setDip t i j { (t i).dip_tbl j with
      dport := Function.update ((t i).dip_tbl j).dport 0 cursor } i').dip_tbl j' = (t i').dip_tbl j' ∨
      (setDip t i j { (t i).dip_tbl j with
        dport := Function.update ((t i).dip_tbl j).dport 0 cursor } i').dip_tbl j' =
        { (t i').dip_tbl j' with
          dport := Function.update ((t i').dip_tbl j').dport 0 cursor } := by
    intro i' j'
    by_cases heq : (i', j') = (i, j)
    · cases heq
      right
      rw [setDip_self]
    · left
      rw [setDip_of_ne _ _ heq]
  refine ⟨fun i' => (setDip_saddr_sport _ _ _ _ i').1, fun i' => (setDip_saddr_sport _ _ _ _ i').2,
    fun i' j' => ?_, fun i' j' => ?_, fun i' j' => ?_, fun i' j' k hk => ?_⟩
  · rcases hdip i' j' with h | h <;> rw [h]
  · rcases hdip i' j' with h | h <;> rw [h]
  · rcases hdip i' j' with h | h <;> rw [h]
  · rcases hdip i' j' with h | h
    · rw [h]
    · rw [h]
      exact Function.update_of_ne hk _ _

/-- A lookup does not see the cursors. -/
theorem SameTbl.getPortrange {t : RssTbl UInt32} (h : SameTbl t t') (conf : RssConf) (enable : Bool)
    (saddr daddr : UInt32) (sport : UInt16) :
    ffRssTblGetPortrange conf enable t' saddr daddr sport =
      ffRssTblGetPortrange conf enable t saddr daddr sport := by
  have hslot : saddrSportProbe (rssFamily4 conf) t' saddr sport =
      saddrSportProbe (rssFamily4 conf) t saddr sport := by
    simp only [saddrSportProbe, h.saddr, h.sport]
  have hdip : ∀ i, daddrProbe (rssFamily4 conf) (t' i) daddr =
      daddrProbe (rssFamily4 conf) (t i) daddr := by
    intro i
    simp only [daddrProbe, h.daddr]
  simp only [ffRssTblGetPortrange, rssTblGetPortrange, hslot, hdip, h.saddr, h.daddr, h.first_idx,
    h.last_idx]

theorem setLastport_tbl (s : LportState) (f : PortFlag) (p : ℕ) :
    (s.setLastport f p).tbl = s.tbl ∧ (s.setLastport f p).rss_tbl_init = s.rss_tbl_init := by
  cases f <;> exact ⟨rfl, rfl⟩

theorem tablePath_tbl (s : LportState) (c : LportCall) (r : PortRange) :
    SameTbl s.tbl (tablePath s c r).1.tbl ∧
      (tablePath s c r).1.rss_tbl_init = s.rss_tbl_init := by
  unfold tablePath
  dsimp only
  split
  all_goals
    dsimp only
    rw [(setLastport_tbl _ _ _).1, (setLastport_tbl _ _ _).2]
    exact ⟨SameTbl.setCursor _ _ _ _, rfl⟩

theorem scanPath_tbl (sys : RssSys) (s : LportState) (c : LportCall) (ifp : Ifp) :
    (scanPath sys s c ifp).1.tbl = s.tbl ∧
      (scanPath sys s c ifp).1.rss_tbl_init = s.rss_tbl_init := by
  unfold scanPath
  dsimp only
  split
  all_goals exact setLastport_tbl _ _ _

theorem noTablePath_tbl (sys : RssSys) (s : LportState) (c : LportCall) :
    (noTablePath sys s c).1.tbl = s.tbl ∧
      (noTablePath sys s c).1.rss_tbl_init = s.rss_tbl_init := by
  unfold noTablePath
  split
  · exact ⟨rfl, rfl⟩
  · exact scanPath_tbl sys s c _
  · split
    · exact setLastport_tbl _ _ _
    · exact scanPath_tbl sys s c _

/-- The range of the first call that gets as far as the table. -/
def firstRange (calls : List LportCall) : Option (ℕ × ℕ) :=
  (calls.find? LportCall.admitted).map fun c => (c.first, c.last)

/-- The state after `calls`, when the table was `t` at first: the range of the table is that of
the first call. -/
def LportInv (sys : RssSys) (t : RssTbl UInt32) (calls : List LportCall) (s : LportState) : Prop :=
  match firstRange calls with
  | none => s.rss_tbl_init = .notInit ∧ s.tbl = t
  | some (first, last) =>
    if (ffRssTblSetPortrange sys.conf sys.enable t first last).2 = 0 then
      s.rss_tbl_init = .successed ∧
        SameTbl (ffRssTblSetPortrange sys.conf sys.enable t first last).1 s.tbl
    else s.rss_tbl_init = .failed

variable {sys : RssSys} {t : RssTbl UInt32} {calls : List LportCall} {s s' : LportState}

theorem firstRange_append (calls : List LportCall) (c : LportCall) :
    firstRange (calls ++ [c]) =
      (firstRange calls).or (if c.admitted then some (c.first, c.last) else none) := by
  unfold firstRange
  rw [List.find?_append]
  cases hf : calls.find? LportCall.admitted with
  | some c' => rfl
  | none =>
    by_cases hc : c.admitted = true
    · simp [hc]
    · simp [hc]

/-- A state with the same status, and the same table up to cursors, is as good once the
range is set. -/
theorem LportInv.congr (h : LportInv sys t calls s) (hsome : firstRange calls ≠ none)
    (htbl : SameTbl s.tbl s'.tbl) (hinit : s'.rss_tbl_init = s.rss_tbl_init) :
    LportInv sys t calls s' := by
  unfold LportInv at h ⊢
  cases hf : firstRange calls with
  | none => exact absurd hf hsome
  | some range =>
    simp only [hf] at h ⊢
    by_cases hret : (ffRssTblSetPortrange sys.conf sys.enable t range.1 range.2).2 = 0
    · rw [if_pos hret] at h ⊢
      exact ⟨hinit.trans h.1, h.2.trans htbl⟩
    · rw [if_neg hret] at h ⊢
      exact hinit.trans h

/-- The once-only call sets the range of the first call.
SOURCE: freebsd/netinet/in_pcb.c:917-920 -/
theorem LportInv.initTable (h : LportInv sys t calls s) (hc : c.admitted = true) :
    LportInv sys t (calls ++ [c]) (initTable sys s c.first c.last) := by
  unfold LportInv at h ⊢
  rw [firstRange_append, hc, if_pos rfl]
  cases hf : firstRange calls with
  | none =>
    simp only [hf] at h
    obtain ⟨hinit, rfl⟩ := h
    simp only [Option.none_or, Model.initTable, if_pos hinit]
    rcases rssTblSetPortrange_ret (rssFamily4 sys.conf) sys.enable s.tbl c.first c.last with
      hret | hret
    · have hret' : (ffRssTblSetPortrange sys.conf sys.enable s.tbl c.first c.last).2 = 0 := hret
      rw [if_pos hret', hret']
      exact ⟨rfl, SameTbl.refl _⟩
    · have hret' : (ffRssTblSetPortrange sys.conf sys.enable s.tbl c.first c.last).2 = -1 := hret
      rw [hret', if_neg (by decide)]
      rfl
  | some range =>
    simp only [hf, Option.some_or] at h ⊢
    have hdone : s.rss_tbl_init ≠ .notInit := by
      split at h
      · rw [h.1]
        decide
      · rw [h]
        decide
    rw [Model.initTable, if_neg hdone]
    exact h

/-- With the range set, a lookup that fails does not take the table out of service. -/
theorem LportInv.enable_of_successed (h : LportInv sys t calls s)
    (hs : s.rss_tbl_init = .successed) :
    ∃ first last, firstRange calls = some (first, last) ∧ sys.enable = true ∧ first ≤ last ∧
      (ffRssTblSetPortrange sys.conf sys.enable t first last).2 = 0 ∧
      SameTbl (ffRssTblSetPortrange sys.conf sys.enable t first last).1 s.tbl := by
  unfold LportInv at h
  cases hf : firstRange calls with
  | none =>
    simp only [hf] at h
    rw [h.1] at hs
    cases hs
  | some range =>
    simp only [hf] at h
    by_cases hret : (ffRssTblSetPortrange sys.conf sys.enable t range.1 range.2).2 = 0
    · rw [if_pos hret] at h
      obtain ⟨henable, hle, -⟩ := rssTblSetPortrange_of_ret_zero (rssFamily4 sys.conf) hret
      exact ⟨range.1, range.2, rfl, henable, hle, hret, h.2⟩
    · rw [if_neg hret, hs] at h
      cases h

/-- One call keeps the invariant.
SOURCE: freebsd/netinet/in_pcb.c:765-1103 -/
theorem LportInv.step (h : LportInv sys t calls s) (c : LportCall) :
    LportInv sys t (calls ++ [c]) (inPcbLportDest sys s c).1 := by
  unfold inPcbLportDest
  by_cases hc : c.admitted = true
  · rw [if_pos hc]
    have hinit := h.initTable hc
    have hsome : firstRange (calls ++ [c]) ≠ none := by
      rw [firstRange_append, hc, if_pos rfl]
      cases firstRange calls <;> simp
    generalize Model.initTable sys s c.first c.last = s₁ at hinit
    dsimp only
    by_cases hs : s₁.rss_tbl_init = .successed
    · rw [if_pos hs]
      cases hget : ffRssTblGetPortrange sys.conf sys.enable s₁.tbl c.faddr c.laddr c.fport with
      | ok r =>
        exact hinit.congr hsome (tablePath_tbl s₁ c r).1 (tablePath_tbl s₁ c r).2
      | error ret =>
        obtain ⟨first, last, -, henable, -⟩ := hinit.enable_of_successed hs
        rw [henable] at hget
        have hret := rssTblGetPortrange_error (rssFamily4 sys.conf) hget
        simp only [hret, ne_eq, not_true_eq_false, if_false]
        refine hinit.congr hsome ?_ (noTablePath_tbl sys s₁ c).2
        rw [(noTablePath_tbl sys s₁ c).1]
        exact SameTbl.refl _
    · rw [if_neg hs]
      refine hinit.congr hsome ?_ (noTablePath_tbl sys s₁ c).2
      rw [(noTablePath_tbl sys s₁ c).1]
      exact SameTbl.refl _
  · rw [if_neg hc]
    unfold LportInv at h ⊢
    rw [firstRange_append, if_neg hc, Option.or_none]
    exact h

/-- The invariant holds after every run. -/
theorem LportInv.run (sys : RssSys) {s : LportState} (hs : s.rss_tbl_init = .notInit)
    (calls : List LportCall) : LportInv sys s.tbl calls (runLport sys s calls) := by
  induction calls using List.reverseRecOn with
  | nil => exact ⟨hs, rfl⟩
  | append_singleton calls c ih =>
    have := ih.step c
    rwa [runLport, List.foldl_append]

end Run

/-- The state before the first call. -/
def bootLport (sys : RssSys) (sc : Bool) (cfgs : List RssTblCfg) (lastport lasthi lastlow : ℕ) :
    LportState :=
  ⟨.notInit, (ffRssTblInit sys.conf sc cfgs).tbl, lastport, lasthi, lastlow⟩

theorem bootLport_inv (sys : RssSys) (sc : Bool) (cfgs : List RssTblCfg)
    (lastport lasthi lastlow : ℕ) (calls : List LportCall) :
    LportInv sys (ffRssTblInit sys.conf sc cfgs).tbl calls
      (runLport sys (bootLport sys sc cfgs lastport lasthi lastlow) calls) :=
  LportInv.run sys rfl calls

/-- The call is served from the table: by the entry made from `cfg`, whose range is that of the
first call. -/
structure TableServes (sys : RssSys) (sc : Bool) (cfgs : List RssTblCfg) (pre : List LportCall)
    (c : LportCall) (cfg : RssTuple UInt32) (first last : ℕ) : Prop where
  range : firstRange (pre ++ [c]) = some (first, last)
  ret : (ffRssTblSetPortrange sys.conf sys.enable (ffRssTblInit sys.conf sc cfgs).tbl first last).2 = 0
  inserted : (cfg, .inserted) ∈ (ffRssTblInit sys.conf sc cfgs).log
  triple : cfg.saddr = c.faddr ∧ cfg.daddr = c.laddr ∧ cfg.sport = c.fport

/-- The addresses of the entries in the table are not zero. -/
def InsertedNonzero (sys : RssSys) (sc : Bool) (cfgs : List RssTblCfg) : Prop :=
  ∀ cfg, (cfg, .inserted) ∈ (ffRssTblInit sys.conf sc cfgs).log → cfg.saddr ≠ 0 ∧ cfg.daddr ≠ 0

/-- What a call needs.  Once the table has been given a range, no address in it is zero.  If the
table serves the call: the entry has a port in the range of the first call, all of those are in the range of this one, and the entry was
configured for the egress port or that port has one queue.  If not, and the solver is used without a
second check: its context agrees with the check. -/
structure CallReady (sys : RssSys) (sc : Bool) (cfgs : List RssTblCfg) (pre : List LportCall)
    (c : LportCall) : Prop where
  nonzero : ∀ first last, firstRange (pre ++ [c]) = some (first, last) →
    (ffRssTblSetPortrange sys.conf sys.enable (ffRssTblInit sys.conf sc cfgs).tbl first last).2 = 0 →
      InsertedNonzero sys sc cfgs
  table : ∀ cfg first last, TableServes sys sc cfgs pre c cfg first last →
    (∃ p ∈ tuplePorts (rssFamily4 sys.conf) cfg, first ≤ p ∧ p ≤ last) ∧
      (∀ p ∈ tuplePorts (rssFamily4 sys.conf) cfg, first ≤ p → p ≤ last →
        c.first ≤ p ∧ p ≤ c.last) ∧
      ∀ port_id, c.ifp = some (.veth port_id) →
        cfg.port_id = port_id ∨ sys.conf.nb_queue_list port_id ≤ 1
  solver : (∀ cfg first last, ¬ TableServes sys sc cfgs pre c cfg first last) →
    ∀ port_id ctx, c.ifp = some (.veth port_id) → sys.thash port_id = some ctx →
      sys.thash_adjust = true → 1 < sys.conf.nb_queue_list port_id → sys.recheck = false →
      ThashAgrees sys.conf port_id ctx

/-- The scan and the solver keep the contract.
SOURCE: freebsd/netinet/in_pcb.c:939-1102 -/
theorem noTablePath_contract {sys : RssSys} (hadj : AdjustTupleSpec sys.adjust)
    (hsolver : ∀ port_id ctx, c.ifp = some (.veth port_id) → sys.thash port_id = some ctx →
      sys.thash_adjust = true → 1 < sys.conf.nb_queue_list port_id → sys.recheck = false →
      ThashAgrees sys.conf port_id ctx) (s : LportState) (h : (noTablePath sys s c).2 = .ok port) :
    LportContract sys c port := by
  have hle := LportCall.first_le_last c
  have hscan : ∀ ifp, c.ifp = some ifp → (scanPath sys s c ifp).2 = .ok port →
      LportContract sys c port := by
    intro ifp hifp hres
    unfold scanPath at hres
    dsimp only at hres
    split at hres
    next p hp =>
      cases hres
      obtain ⟨h1, h2, h3, h4⟩ := scanLoop_some hle _ _ hp
      refine ⟨h1, h2, h3, ?_⟩
      intro port_id hport
      rw [hifp] at hport
      cases hport
      exact h4
    next => cases hres
  unfold noTablePath at h
  split at h
  · cases h
  next hifp => exact hscan _ hifp h
  next port_id hifp =>
    split at h
    next p hp =>
      cases h
      obtain ⟨hused, r1, r2, hsol⟩ := fastLoop_some 8 hp
      obtain ⟨h1, h2, hadjust, hnb, ctx, hctx, hcheck⟩ := ffRssAdjustSport_some hadj hsol
      refine ⟨h1, h2, hused, ?_⟩
      intro port_id' hport
      rw [hifp] at hport
      cases hport
      apply hcheck
      cases hre : sys.recheck with
      | true => exact .inl rfl
      | false => exact .inr (hsolver port_id ctx hifp hctx hadjust hnb hre)
    next => exact hscan _ hifp h

/-- An entry found after the range was set holds the list of an inserted tuple, and its
indices are what the call that set the range left.
SOURCE: freebsd/netinet/in_pcb.c:922-936 -/
theorem lookup_after_set {t : RssTbl UInt32} (hinv : TblInv (rssFamily4 conf) t ins) {first last : ℕ}
    (hret : (ffRssTblSetPortrange conf true t first last).2 = 0) {saddr daddr : UInt32} {sport : UInt16}
    (hget : ffRssTblGetPortrange conf true (ffRssTblSetPortrange conf true t first last).1 saddr daddr
      sport = .ok r) :
    ∃ c ∈ ins, (c.saddr = saddr ∧ c.daddr = daddr ∧ c.sport = sport) ∧ ∃ i j,
      InUse (rssFamily4 conf) t i j ∧ HoldsTuple (rssFamily4 conf) ((t i).dip_tbl j) c ∧
      ((ffRssTblSetPortrange conf true t first last).1 i).dip_tbl j =
        setDipRange first last ((t i).dip_tbl j) ∧
      r = ⟨(setDipRange first last ((t i).dip_tbl j)).first_idx,
        (setDipRange first last ((t i).dip_tbl j)).last_idx, (i, j)⟩ := by
  obtain ⟨i, j, hslot, hdip, hr⟩ := rssTblGetPortrange_ok (rssFamily4 conf) hget
  obtain ⟨-, -, hset⟩ := rssTblSetPortrange_of_ret_zero (rssFamily4 conf) hret
  have hstep : RangeStep first last t (ffRssTblSetPortrange conf true t first last).1 := by
    rcases rssTblSetPortrange_step (rssFamily4 conf) true t first last with ⟨-, hne⟩ | ⟨-, hstep⟩
    · exact absurd hret hne
    · exact hstep
  have hkey : ∀ {s : RssSlot UInt32} {k}, slotKey (rssFamily4 conf) s = some k →
      (rssFamily4 conf).isAny s.saddr = false ∧ k = (s.saddr, s.sport) := by
    intro s k hk
    unfold slotKey at hk
    split at hk
    · cases hk
    next hany => exact ⟨by simpa using hany, (Option.some.inj hk).symm⟩
  have hdkey : ∀ {e : RssDip UInt32} {d}, dipKey (rssFamily4 conf) e = some d →
      (rssFamily4 conf).isAny e.daddr = false ∧ d = e.daddr := by
    intro e d hd
    unfold dipKey at hd
    split at hd
    · cases hd
    next hany => exact ⟨by simpa using hany, (Option.some.inj hd).symm⟩
  have huse' : InUse (rssFamily4 conf) (ffRssTblSetPortrange conf true t first last).1 i j :=
    ⟨(hkey hslot).1, (hdkey hdip).1⟩
  have huse := (inUse_congr (rssFamily4 conf) hstep i j).mp huse'
  have hentry : ((ffRssTblSetPortrange conf true t first last).1 i).dip_tbl j =
      setDipRange first last ((t i).dip_tbl j) := hset i j huse
  obtain ⟨c, hc, ⟨h1, h2, h3⟩, hholds⟩ := hinv.holds_of_inUse (rssFamily4 conf) huse
  have hs := (hkey hslot).2
  rw [(hstep.1 i).1, (hstep.1 i).2, Prod.mk.injEq] at hs
  have hd := (hdkey hdip).2
  rw [hentry] at hd
  refine ⟨c, hc, ⟨h1.trans hs.1.symm, h2.trans hd.symm, h3.trans hs.2.symm⟩, i, j, huse, hholds,
    hentry, ?_⟩
  rw [hr, hentry]

/-- A port from the table is an unused port of the entry in the range of the first
call.
SOURCE: freebsd/netinet/in_pcb.c:992-1098 -/
theorem tablePath_port {t : RssTbl UInt32} (hinv : TblInv (rssFamily4 conf) t ins) {first last : ℕ} (hle : first ≤ last)
    (hret : (ffRssTblSetPortrange conf true t first last).2 = 0) {s : LportState}
    (hsame : SameTbl (ffRssTblSetPortrange conf true t first last).1 s.tbl)
    (hget : ffRssTblGetPortrange conf true s.tbl c.faddr c.laddr c.fport = .ok r) :
    ∃ cfg ∈ ins, (cfg.saddr = c.faddr ∧ cfg.daddr = c.laddr ∧ cfg.sport = c.fport) ∧
      ((∃ p ∈ tuplePorts (rssFamily4 conf) cfg, first ≤ p ∧ p ≤ last) →
        ∀ port, (tablePath s c r).2 = .ok port →
          port ∈ tuplePorts (rssFamily4 conf) cfg ∧ first ≤ port ∧ port ≤ last ∧
            c.used port = false) := by
  rw [hsame.getPortrange] at hget
  obtain ⟨cfg, hcfg, htriple, i, j, huse, hholds, hentry, hr⟩ := lookup_after_set hinv hret hget
  refine ⟨cfg, hcfg, htriple, ?_⟩
  rintro ⟨p, hp, hp1, hp2⟩ port hport
  obtain ⟨hpos, hrange⟩ :=
    (rssTblSetPortrange_ret_zero_iff (rssFamily4 conf) t hle).mp hret i j huse
  -- the entry was ready for the first call, so its indices select that call's range
  have hready : RangeReady first last ((t i).dip_tbl j) := by
    obtain ⟨k, hk1, hk2, rfl⟩ := (hholds.exists_dport_iff _ p).mpr hp
    refine ⟨⟨k, hk1, hk2, hp1, hp2⟩, fun _ => ?_⟩
    rw [hholds.last_idx_eq, hholds.lists.num_eq]
  have hexact := (setDipRange_exact_iff hle (hholds.wellListed _) hpos hrange).mpr hready
  unfold tablePath at hport
  dsimp only at hport
  split at hport
  next q hq =>
    cases hport
    have h1 : r.rss_first = (setDipRange first last ((t i).dip_tbl j)).first_idx := by rw [hr]
    have h2 : r.rss_last = (setDipRange first last ((t i).dip_tbl j)).last_idx := by rw [hr]
    have h3 : r.rss_portrange = (i, j) := by rw [hr]
    obtain ⟨⟨k, hk1, hk2, hk⟩, hused⟩ := tableLoop_some (by omega) (by omega) _ _ _ hq
    rw [h3, hsame.dport i j k (by omega), hentry] at hk
    have hmem : port ∈ {p | ∃ k, (setDipRange first last ((t i).dip_tbl j)).first_idx ≤ k ∧
        k ≤ (setDipRange first last ((t i).dip_tbl j)).last_idx ∧
        (setDipRange first last ((t i).dip_tbl j)).dport k = p} := ⟨k, by omega, by omega, hk⟩
    rw [hexact] at hmem
    obtain ⟨hav, hf, hl⟩ := hmem
    exact ⟨(hholds.exists_dport_iff _ port).mp hav, hf, hl, hused⟩
  next => cases hport

/-- A call that the table serves finds its entry. -/
theorem lookup_of_tableServes {sys : RssSys} {first last : ℕ} (hserves : TableServes sys sc cfgs pre c cfg first last)
    (hnz : InsertedNonzero sys sc cfgs) {s : LportState}
    (hinv : LportInv sys (ffRssTblInit sys.conf sc cfgs).tbl (pre ++ [c]) s) :
    s.rss_tbl_init = .successed ∧
      ∃ r, ffRssTblGetPortrange sys.conf sys.enable s.tbl c.faddr c.laddr c.fport = .ok r := by
  unfold LportInv at hinv
  rw [hserves.range] at hinv
  simp only [if_pos hserves.ret] at hinv
  obtain ⟨hs, hsame⟩ := hinv
  refine ⟨hs, ?_⟩
  obtain ⟨ins, htbl, hmem⟩ := TblInv.init (rssFamily4 sys.conf) sc (cfgs4 cfgs) hnz
  obtain ⟨henable, -, hset⟩ := rssTblSetPortrange_of_ret_zero (rssFamily4 sys.conf) hserves.ret
  have hstep := rssTblSetPortrange_step (rssFamily4 sys.conf) sys.enable
    (ffRssTblInit sys.conf sc cfgs).tbl first last
  rcases hstep with ⟨-, hne⟩ | ⟨-, hstep⟩
  · exact absurd hserves.ret hne
  obtain ⟨i, j, hslot, hdip, -⟩ := htbl.stored cfg ((hmem cfg).mpr hserves.inserted)
  rw [hsame.getPortrange, henable]
  rw [henable] at hstep
  -- the keys of the table are those of the table that was set up
  have hkeys : ∀ i, slotKey (rssFamily4 sys.conf) ((ffRssTblSetPortrange sys.conf true
      (ffRssTblInit sys.conf sc cfgs).tbl first last).1 i) =
      slotKey (rssFamily4 sys.conf) ((ffRssTblInit sys.conf sc cfgs).tbl i) := by
    intro i
    have h1 := (hstep.1 i).1
    have h2 := (hstep.1 i).2
    unfold slotKey
    rw [ffRssTblSetPortrange, h1, h2]
  have hdips : ∀ i j, dipKey (rssFamily4 sys.conf) (((ffRssTblSetPortrange sys.conf true
      (ffRssTblInit sys.conf sc cfgs).tbl first last).1 i).dip_tbl j) =
      dipKey (rssFamily4 sys.conf) (((ffRssTblInit sys.conf sc cfgs).tbl i).dip_tbl j) := by
    intro i j
    rw [ffRssTblSetPortrange]
    rcases hstep.2 i j with heq | heq
    · rw [heq]
    · rw [heq]
      rfl
  obtain ⟨h1, h2, h3⟩ := hserves.triple
  refine ⟨_, rssTblGetPortrange_of_keys (rssFamily4 sys.conf) ?_ ?_ (i := i) (j := j) ?_ ?_⟩
  · simp only [hkeys]
    exact htbl.outer
  · intro i
    simp only [hdips]
    exact htbl.inner i
  · rw [hkeys i, ← h1, ← h3]
    exact hslot
  · rw [hdips i j, ← h2]
    exact hdip

/-- In every run, a call of `in_pcb_lport_dest` that returns 0 and that meets `CallReady` has chosen
an unused port of its own range that lands on this process's queue.
SOURCE: freebsd/netinet/in_pcb.c:765-1103 -/
theorem inPcbLportDest_contract (sys : RssSys) (hadj : AdjustTupleSpec sys.adjust) (sc : Bool)
    (cfgs : List RssTblCfg) (lastport lasthi lastlow : ℕ) (pre : List LportCall) (c : LportCall)
    (port : ℕ)
    (hret : (inPcbLportDest sys
      (runLport sys (bootLport sys sc cfgs lastport lasthi lastlow) pre) c).2 = .ok port)
    (hready : CallReady sys sc cfgs pre c) : LportContract sys c port := by
  have hrun := bootLport_inv sys sc cfgs lastport lasthi lastlow pre
  generalize runLport sys (bootLport sys sc cfgs lastport lasthi lastlow) pre = s at hrun hret
  unfold inPcbLportDest at hret
  by_cases hc : c.admitted = true
  swap
  · rw [if_neg hc] at hret
    cases hret
  rw [if_pos hc] at hret
  have hinit := hrun.initTable hc
  generalize initTable sys s c.first c.last = s₁ at hinit hret
  dsimp only at hret
  -- when the table does not serve the call, the other two selectors do
  have hother : (¬ ∃ r, s₁.rss_tbl_init = .successed ∧
      ffRssTblGetPortrange sys.conf sys.enable s₁.tbl c.faddr c.laddr c.fport = .ok r) →
      ∀ s', (noTablePath sys s' c).2 = .ok port → LportContract sys c port := by
    intro hno s' hres
    apply noTablePath_contract hadj _ s' hres
    apply hready.solver
    intro cfg first last hserves
    obtain ⟨hs, r, hr⟩ := lookup_of_tableServes hserves (hready.nonzero first last hserves.range hserves.ret) hinit
    exact hno ⟨r, hs, hr⟩
  by_cases hs : s₁.rss_tbl_init = .successed
  swap
  · rw [if_neg hs] at hret
    exact hother (fun ⟨_, h, _⟩ => hs h) _ hret
  rw [if_pos hs] at hret
  cases hget : ffRssTblGetPortrange sys.conf sys.enable s₁.tbl c.faddr c.laddr c.fport with
  | error ret =>
    simp only [hget] at hret
    exact hother (fun ⟨r, _, h⟩ => by rw [hget] at h; cases h) _ hret
  | ok r =>
    simp only [hget] at hret
    obtain ⟨first, last, hrange, henable, hle, hzero, hsame⟩ := hinit.enable_of_successed hs
    obtain ⟨ins, htbl, hmem⟩ :=
      TblInv.init (rssFamily4 sys.conf) sc (cfgs4 cfgs) (hready.nonzero first last hrange hzero)
    have hzero' := hzero
    rw [henable] at hzero' hsame hget
    obtain ⟨cfg, hcfg, htriple, hports⟩ := tablePath_port htbl hle hzero' hsame hget
    obtain ⟨hex, hin, hport⟩ := hready.table cfg first last
      ⟨hrange, hzero, (hmem cfg).mp hcfg, htriple⟩
    obtain ⟨hav, hf, hl, hused⟩ := hports hex port hret
    refine ⟨(hin port hav hf hl).1, (hin port hav hf hl).2, hused, ?_⟩
    intro port_id hifp
    rcases hport port_id hifp with heq | hone
    · have hcheck := ((mem_tuplePorts_iff _ cfg port).mp hav).2.1
      rw [heq, htriple.1, htriple.2.1, htriple.2.2] at hcheck
      exact hcheck
    · rw [ffRssCheck, if_pos hone]

/-- A call of a socket without range flags, for the flow of `lanTuple`, with every port free. -/
def lanCall : LportCall where
  flag := .default
  privileged := true
  ipport_hifirstauto := 49152
  ipport_hilastauto := 65535
  ipport_lowfirstauto := 1023
  ipport_lowlastauto := 600
  ipport_firstauto := 10000
  ipport_lastauto := 65535
  ipport_randomized := false
  faddr := 0x0101a8c0
  laddr := 0x0201a8c0
  fport := 0x5000
  used _ := false
  ifp := some (.veth 0)
  rand _ := 0

/-- A solver that tries the low bits of the port one after another. -/
def searchAdjust (ctx : ThashCtx) (tuple : List UInt8) (desired : ℕ) : Option (List UInt8) :=
  let port := tuplePort tuple
  let tuples := (List.range (2 ^ ctx.reta_sz_log)).map fun x =>
    let port := port - port % 2 ^ ctx.reta_sz_log + x
    tuple.take 10 ++ [UInt8.ofNat (port / 256), UInt8.ofNat port]
  tuples.find? fun out =>
    (toeplitzHash ctx.key_len ctx.key out).toNat % 2 ^ ctx.reta_sz_log ==
      desired % 2 ^ ctx.reta_sz_log

theorem searchAdjust_spec : AdjustTupleSpec searchAdjust := by
  intro ctx tuple desired out hlen h
  unfold searchAdjust at h
  have hhash := List.find?_some h
  have hmem := List.mem_of_find?_eq_some h
  obtain ⟨x, -, rfl⟩ := List.mem_map.mp hmem
  have htake : (tuple.take 10).length = 10 := by
    rw [List.length_take]
    omega
  refine ⟨?_, ?_, by simpa using hhash⟩
  · rw [List.length_append, htake]
    rfl
  · exact List.take_left' htake

/-- Two queues with a table of four entries, and a context made for them. -/
def solverSys : RssSys where
  conf := { twoQueueConf with rss_reta_size := fun _ => 4 }
  enable := true
  recheck := false
  thash_adjust := true
  thash _ := some ⟨40, keyBytes defaultRsskey40bytes, 2⟩
  adjust := searchAdjust

theorem inPcbLportDest_contract_solver :
    (inPcbLportDest solverSys (runLport solverSys (bootLport solverSys true [] 0 0 0) []) lanCall).2 =
        .ok 10001 ∧ LportContract solverSys lanCall 10001 := by
  have hret : (inPcbLportDest solverSys (runLport solverSys (bootLport solverSys true [] 0 0 0) [])
      lanCall).2 = .ok 10001 := by decide
  refine ⟨hret, inPcbLportDest_contract solverSys searchAdjust_spec true [] 0 0 0 [] lanCall 10001
    hret ⟨fun _ _ _ _ cfg h => ?_, ?_, ?_⟩⟩
  · exact absurd h (by simp [ffRssTblInit, cfgs4, rssTblInit, rssTblInitLoop])
  · intro cfg first last h
    exact absurd h.inserted (by simp [ffRssTblInit, cfgs4, rssTblInit, rssTblInitLoop])
  · intro _ port_id ctx hifp hctx _ _ _
    cases hifp
    cases hctx
    exact ⟨by decide, by decide, fun _ _ => rfl, rfl, by decide, by decide, by decide⟩

/-- The same process without a solver. -/
def tableSys : RssSys where
  conf := twoQueueConf
  enable := true
  recheck := false
  thash_adjust := true
  thash _ := none
  adjust := searchAdjust

/-- A call of a socket with `INP_LOWPORT`: its range is 600..1023. -/
def lanLowCall : LportCall := { lanCall with flag := .lowport }

/-- The range of the first call is set without error. -/
theorem lanCall_sets_range :
    (ffRssTblSetPortrange tableSys.conf tableSys.enable
      (ffRssTblInit tableSys.conf true lanCfg).tbl 10000 65535).2 = 0 := by
  have hconf : tableSys.conf = twoQueueConf := rfl
  have henable : tableSys.enable = true := rfl
  rw [hconf, henable]
  obtain ⟨ins, hinv, hmem⟩ := TblInv.init (rssFamily4 twoQueueConf) true [lanTuple] fun c hc => by
    obtain rfl := List.mem_singleton.mp (mem_of_log _ hc)
    decide
  rw [rssTblInit_single_log] at hmem
  have hcfg : cfgs4 lanCfg = [lanTuple] := rfl
  rw [ffRssTblInit, hcfg, ffRssTblSetPortrange]
  generalize (rssTblInit (rssFamily4 twoQueueConf) true [lanTuple]).tbl = t at hinv ⊢
  rw [rssTblSetPortrange_ret_zero_iff _ t (by omega)]
  intro i j huse
  obtain ⟨c, hc, -, hholds⟩ := hinv.holds_of_inUse _ huse
  have hceq : c = lanTuple := by simpa using (hmem c).mp hc
  rw [hceq] at hholds
  generalize (t i).dip_tbl j = e at hholds
  obtain ⟨hp1, -, hmax⟩ := lanTuple_ports
  obtain ⟨k, hk1, hk2, hk⟩ := (hholds.exists_dport_iff _ 10001).mpr hp1
  have hlast : e.dport e.num < 65535 :=
    hmax _ ((hholds.exists_dport_iff _ _).mp ⟨e.num, by omega, le_refl _, rfl⟩)
  have hfull : e.last_idx = e.num := by rw [hholds.last_idx_eq, hholds.lists.num_eq]
  have hcases := setDipRange_cases (show 10000 ≤ 65535 by omega) e
  cases hcases with
  | noPort hnone hf hl =>
    have := hnone k hk1 hk2
    omega
  | keepLast ha hge hmin hlt hl => exact ⟨by omega, by omega⟩
  | single ha hge hmin hge' heq hl => omega
  | search ha hge hmin hge' hlt b hb hbge hbmin hl => omega

/-- With every port free the table path always finds a port. -/
theorem tablePath_ok_of_free (s : LportState) (hfree : ∀ p, c.used p = false) (r : PortRange) :
    ∃ port, (tablePath s c r).2 = .ok port := by
  unfold tablePath
  simp only [tableLoop, hfree, Bool.false_eq_true, if_false]
  exact ⟨_, rfl⟩

/-- A call that the table serves, with every port free, gets a port of the range of the
first call, whatever its own range is. -/
theorem inPcbLportDest_of_tableServes {sys : RssSys} {first last : ℕ}
    (hserves : TableServes sys sc cfgs pre c cfg first last) (hnz : InsertedNonzero sys sc cfgs)
    (hadm : c.admitted = true) (hfree : ∀ p, c.used p = false)
    (hports : ∀ cfg, (cfg, .inserted) ∈ (ffRssTblInit sys.conf sc cfgs).log →
      ∃ p ∈ tuplePorts (rssFamily4 sys.conf) cfg, first ≤ p ∧ p ≤ last) (lastport lasthi lastlow : ℕ) :
    ∃ port, (inPcbLportDest sys
        (runLport sys (bootLport sys sc cfgs lastport lasthi lastlow) pre) c).2 = .ok port ∧
      first ≤ port ∧ port ≤ last := by
  have hrun := bootLport_inv sys sc cfgs lastport lasthi lastlow pre
  generalize runLport sys (bootLport sys sc cfgs lastport lasthi lastlow) pre = s at hrun ⊢
  have hinit := hrun.initTable hadm
  obtain ⟨hs, r, hget⟩ := lookup_of_tableServes hserves hnz hinit
  obtain ⟨first', last', hrange, henable, hle, hzero, hsame⟩ := hinit.enable_of_successed hs
  rw [hserves.range] at hrange
  cases hrange
  obtain ⟨ins, htbl, hmem⟩ := TblInv.init (rssFamily4 sys.conf) sc (cfgs4 cfgs) hnz
  obtain ⟨port, hport⟩ := tablePath_ok_of_free (initTable sys s c.first c.last) hfree r
  have hget' := hget
  rw [henable] at hzero hsame hget'
  obtain ⟨cfg', hcfg', -, hin⟩ := tablePath_port htbl hle hzero hsame hget'
  obtain ⟨-, hf, hl, -⟩ := hin (hports cfg' ((hmem cfg').mp hcfg')) port hport
  refine ⟨port, ?_, hf, hl⟩
  unfold inPcbLportDest
  rw [if_pos hadm]
  dsimp only
  rw [if_pos hs, hget]
  exact hport

/-- After a call with the default range, a low-port call for the same flow gets a port outside
600..1023. -/
theorem lanLowCall_breaks_contract :
    ∃ port, (inPcbLportDest tableSys
        (runLport tableSys (bootLport tableSys true lanCfg 0 0 0) [lanCall]) lanLowCall).2 = .ok port ∧
      ¬ LportContract tableSys lanLowCall port := by
  have hlog : (ffRssTblInit tableSys.conf true lanCfg).log = [(lanTuple, .inserted)] := by
    have hcfg : cfgs4 lanCfg = [lanTuple] := rfl
    rw [ffRssTblInit, hcfg, rssTblInit_single_log]
  have hserves : TableServes tableSys true lanCfg [lanCall] lanLowCall lanTuple 10000 65535 :=
    ⟨rfl, lanCall_sets_range, by rw [hlog]; exact List.mem_cons_self, ⟨rfl, rfl, rfl⟩⟩
  have hports : ∀ cfg, (cfg, .inserted) ∈ (ffRssTblInit tableSys.conf true lanCfg).log →
      ∃ p ∈ tuplePorts (rssFamily4 tableSys.conf) cfg, 10000 ≤ p ∧ p ≤ 65535 := by
    intro cfg hcfg
    rw [hlog, List.mem_singleton] at hcfg
    cases hcfg
    exact ⟨10001, lanTuple_ports.1, by omega, by omega⟩
  have hnz : InsertedNonzero tableSys true lanCfg := by
    intro cfg hcfg
    rw [hlog, List.mem_singleton] at hcfg
    cases hcfg
    decide
  obtain ⟨port, hport, hf, -⟩ := inPcbLportDest_of_tableServes hserves hnz rfl
    (fun _ => rfl) hports 0 0 0
  refine ⟨port, hport, ?_⟩
  rintro ⟨-, hl, -⟩
  have hlast : lanLowCall.last = 1023 := rfl
  omega

end FStack.Analysis
