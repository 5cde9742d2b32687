import FStack.Model.HashDrain

/-!
# Which hash tables can be emptied

The pool of message buffers is emptied whatever it holds.  Sessions are deleted once each if they are registered under
the key that they still have.  The tables of the destination links and of the kept connections are only emptied when
there is nothing in them.
-/

set_option autoImplicit false

namespace FStack.Analysis

open FStack.Model FStack.Prelude

variable {α : Type}

/-! ## What is expected -/

/-- Every loop ends, and deletes each entry of its table once; none comes to an entry that it has deleted. -/
structure DrainsRight (tables : HashTables) : Prop where
  links : Drained HashList.hashGetFirst deleteDestLinks tables.ip_hash tables.ip_hash.entries
  sessions : Drained HashList.hashGetFirst deleteNetHandler tables.session_hash tables.session_hash.entries
  keep : Drained HashList.hashGetFirst deleteKeepKey tables.keep_hash tables.keep_hash.entries
  pool : Drained HashList.hashGetFirst removeMsgMap tables.hash_map tables.hash_map.entries

/-- The condition: there are no destination links and no kept connections, and every session is registered and has the
hash value with which it was inserted. -/
structure DrainsSafe (tables : HashTables) : Prop where
  links : tables.ip_hash.entries = []
  sessions : ∀ h ∈ tables.session_hash.entries, h.in_session = true ∧ h.hashValue = h.hash_value
  keep : tables.keep_hash.entries = []

/-! ## Buckets -/

theorem findSome_head (buckets : List (List α)) : buckets.findSome? List.head? = buckets.flatten.head? := by
  induction buckets with
  | nil => rfl
  | cons bucket buckets ih =>
    cases bucket with
    | nil => exact ih
    | cons e rest => rfl

theorem replicate_flatten (i : ℕ) : (List.replicate i ([] : List α)).flatten = [] := by
  rw [List.flatten_replicate_nil]

theorem modify_append {i : ℕ} (f : List α → List α) (bucket : List α) (after : List (List α)) :
    (List.replicate i [] ++ bucket :: after).modify i f = List.replicate i [] ++ f bucket :: after := by
  induction i with
  | zero => rfl
  | succ i ih =>
    rw [List.replicate_succ, List.cons_append, List.modify_succ_cons, ih]
    rfl

/-! ## The first entry -/

variable [HashKey α] {t : HashList α} {e : α} {rest : List α}

theorem hashGetFirst_eq (t : HashList α) : t.hashGetFirst = t.entries.head? := findSome_head t.buckets

/-- INTERNAL: Where the first entry is. -/
theorem buckets_of_entries (h : t.entries = e :: rest) :
    ∃ (i : ℕ) (bucket : List α) (after : List (List α)),
      t.buckets = List.replicate i [] ++ (e :: bucket) :: after ∧ rest = bucket ++ after.flatten := by
  unfold HashList.entries at h
  generalize t.buckets = buckets at h
  induction buckets with
  | nil => cases h
  | cons first buckets ih =>
    cases first with
    | nil =>
      obtain ⟨i, bucket, after, heq, hrest⟩ := ih h
      exact ⟨i + 1, bucket, after, by rw [heq]; rfl, hrest⟩
    | cons x bucket =>
      rw [List.flatten_cons, List.cons_append] at h
      injection h with hx hrest
      subst hx
      exact ⟨0, bucket, buckets, rfl, hrest.symm⟩

/-- INTERNAL: The first entry is in the bucket of its hash value. -/
theorem index_of_first (h : t.entries = e :: rest) :
    ∃ (bucket : List α) (after : List (List α)),
      t.buckets = List.replicate ((HashKey.hash_value e).toNat % t.buckets.length) [] ++ (e :: bucket) :: after ∧
        rest = bucket ++ after.flatten := by
  obtain ⟨i, bucket, after, heq, hrest⟩ := buckets_of_entries h
  have hget : t.buckets[i]? = some (e :: bucket) := by
    rw [heq, List.getElem?_append_right (by rw [List.length_replicate]), List.length_replicate, Nat.sub_self]
    rfl
  have hi := t.placed i _ hget e List.mem_cons_self
  refine ⟨bucket, after, ?_, hrest⟩
  rw [hi]
  exact heq

/-! ## Removing the first entry -/

/-- `HashRemove` takes the first entry out if it has the hash value with which it was inserted. -/
theorem entries_hashRemove (h : t.entries = e :: rest) (hself : HashList.hashMatch e e = true) :
    (t.hashRemove e).entries = rest := by
  have hvalue : HashKey.hash_value e = HashKey.hashValue e := by
    unfold HashList.hashMatch at hself
    rw [Bool.and_eq_true, decide_eq_true_iff] at hself
    exact hself.1
  obtain ⟨bucket, after, heq, hrest⟩ := index_of_first h
  have hbuckets : (t.hashRemove e).buckets = List.replicate (t.hashIndex e) [] ++ bucket :: after := by
    unfold HashList.hashRemove HashList.hashIndex
    dsimp only
    rw [← hvalue]
    generalize (HashKey.hash_value e).toNat % t.buckets.length = i at heq ⊢
    rw [heq, modify_append, List.eraseP_cons_of_pos hself]
  unfold HashList.entries
  rw [hbuckets, List.flatten_append, replicate_flatten, hrest]
  rfl

/-- `HashRemove` of a key leaves the first entry in its place if the entry has another hash value. -/
theorem head_hashRemove (h : t.entries = e :: rest) {key : α} (hvalue : HashKey.hash_value e ≠ HashKey.hashValue key) :
    (t.hashRemove key).entries.head? = some e := by
  obtain ⟨i, bucket, after, heq, -⟩ := buckets_of_entries h
  have hnot : ¬ HashList.hashMatch key e = true := by
    unfold HashList.hashMatch
    rw [Bool.and_eq_true, decide_eq_true_iff]
    exact fun hmatch => hvalue hmatch.1
  unfold HashList.entries HashList.hashRemove
  dsimp only
  rw [heq]
  generalize t.hashIndex key = j
  clear heq h
  induction i generalizing j with
  | zero =>
    cases j with
    | zero =>
      rw [List.replicate_zero, List.nil_append, List.modify_zero_cons, List.eraseP_cons_of_neg hnot]
      rfl
    | succ j => rfl
  | succ i ih =>
    cases j with
    | zero =>
      rw [List.replicate_succ, List.cons_append, List.modify_zero_cons, List.eraseP_nil, List.flatten_cons,
        List.nil_append, List.flatten_append, replicate_flatten]
      rfl
    | succ j => exact ih j

/-! ## Deleting an entry -/

/-- A field that is the same decides nothing. -/
theorem cmpFields_eq_zero {fields : List (ℕ × ℕ)} : cmpFields fields = 0 ↔ ∀ field ∈ fields, field.1 = field.2 := by
  induction fields with
  | nil => simp [cmpFields]
  | cons field rest ih =>
    obtain ⟨a, b⟩ := field
    unfold cmpFields
    rw [List.forall_mem_cons]
    by_cases hab : a = b
    · rw [if_neg (not_not_intro hab), ih]
      exact (and_iff_right hab).symm
    · rw [if_pos hab]
      refine iff_of_false ?_ fun h => hab h.1
      split <;> decide

theorem hashCmp_eq_zero {h data : CNetHandler} (hcmp : h.hashCmp data = 0) : h.hashValue = data.hashValue := by
  have hfields := cmpFields_eq_zero.mp hcmp
  simp only [List.forall_mem_cons, List.not_mem_nil, false_implies, implies_true, and_true] at hfields
  obtain ⟨hid, haddr, hport, hproto, hconn⟩ := hfields
  unfold CNetHandler.hashValue
  rw [BitVec.eq_of_toNat_eq hid, BitVec.eq_of_toNat_eq haddr, BitVec.eq_of_toNat_eq hport,
    BitVec.eq_of_toNat_eq hproto, BitVec.eq_of_toNat_eq hconn]

theorem hashCmp_self (h : CNetHandler) : h.hashCmp h = 0 := by
  apply cmpFields_eq_zero.mpr
  simp

/-- INTERNAL: A session that is registered under its key is found.
SOURCE: hash_list.h:113-134 -/
theorem hashFind_first {t : HashList CNetHandler} {h : CNetHandler} {rest : List CNetHandler}
    (hfirst : t.entries = h :: rest) (hvalue : h.hashValue = h.hash_value) : t.hashFind h = some h := by
  have hself : HashList.hashMatch h h = true := by
    unfold HashList.hashMatch
    rw [Bool.and_eq_true, decide_eq_true_iff, decide_eq_true_iff]
    exact ⟨hvalue.symm, hashCmp_self h⟩
  obtain ⟨bucket, after, heq, -⟩ := index_of_first hfirst
  have hget : t.buckets[t.hashIndex h]? = some (h :: bucket) := by
    have hindex : t.hashIndex h = (HashKey.hash_value h).toNat % t.buckets.length :=
      congrArg (fun v : BitVec 32 => v.toNat % t.buckets.length) hvalue
    rw [hindex]
    generalize (HashKey.hash_value h).toNat % t.buckets.length = i at heq ⊢
    rw [heq, List.getElem?_append_right (by rw [List.length_replicate]), List.length_replicate, Nat.sub_self]
    rfl
  unfold HashList.hashFind
  rw [hget, Option.getD_some, List.find?_cons_of_pos hself]

theorem deleteNetHandler_safe {t : HashList CNetHandler} {h : CNetHandler} {rest : List CNetHandler}
    (hfirst : t.entries = h :: rest) (hsafe : h.in_session = true ∧ h.hashValue = h.hash_value) :
    (deleteNetHandler t h).entries = rest := by
  have hself : HashList.hashMatch h h = true := by
    unfold HashList.hashMatch
    rw [Bool.and_eq_true, decide_eq_true_iff, decide_eq_true_iff]
    exact ⟨hsafe.2.symm, hashCmp_self h⟩
  unfold deleteNetHandler removeNetItem
  rw [if_pos hsafe.1, hashFind_first hfirst hsafe.2]
  exact entries_hashRemove hfirst hself

/-- INTERNAL: A session that is not registered, or whose key has another hash value, stays; what is removed in its
place is another session.
SOURCE: mt_net.cpp:640-647, 1624-1634 -/
theorem deleteNetHandler_unsafe {t : HashList CNetHandler} {h : CNetHandler} {rest : List CNetHandler}
    (hfirst : t.entries = h :: rest) (hstays : ¬ (h.in_session = true ∧ h.hashValue = h.hash_value)) :
    (deleteNetHandler t h).entries.head? = some h := by
  have hstay : t.entries.head? = some h := by rw [hfirst]; rfl
  unfold deleteNetHandler removeNetItem
  split
  next hsession =>
    have hvalue : h.hashValue ≠ h.hash_value := fun heq => hstays ⟨hsession, heq⟩
    split
    · exact hstay
    next handler hfind =>
      have hmatch := List.find?_some hfind
      unfold HashList.hashMatch at hmatch
      rw [Bool.and_eq_true, decide_eq_true_iff, decide_eq_true_iff] at hmatch
      refine head_hashRemove hfirst ?_
      have hsame : handler.hashValue = h.hashValue := hashCmp_eq_zero hmatch.2
      intro heq
      exact hvalue (hsame.symm.trans heq.symm)
  · exact hstay

theorem msgMap_match (m : MsgBufMap) : HashList.hashMatch m m = true := by
  unfold HashList.hashMatch
  rw [Bool.and_eq_true, decide_eq_true_iff, decide_eq_true_iff]
  refine ⟨rfl, ?_⟩
  have hzero : m.max_buf_size - m.max_buf_size = 0 := BitVec.sub_self _
  exact congrArg BitVec.toInt hzero

/-! ## The loops -/

/-- A loop whose deletions leave the table alone ends well only over an empty table. -/
theorem drained_unchanged [DecidableEq α] (t : HashList α) :
    Drained HashList.hashGetFirst (fun t _ => t) t t.entries ↔ t.entries = [] := by
  rw [drained_iff (fun _ => False) hashGetFirst_eq (fun _ _ _ _ h => h.elim)
    (fun _ _ _ h _ => by rw [h]; rfl) t.distinct, List.eq_nil_iff_forall_not_mem]

/-- The loops of the destructors end, with every entry deleted once, if and only if the condition holds.
SOURCE: mt_net.cpp:1712-1742, mt_connection.cpp:477-492, mt_mbuf_pool.cpp:57-76 -/
theorem drains_right_iff (tables : HashTables) : DrainsRight tables ↔ DrainsSafe tables := by
  have hsessions : Drained HashList.hashGetFirst deleteNetHandler tables.session_hash tables.session_hash.entries ↔
      ∀ h ∈ tables.session_hash.entries, h.in_session = true ∧ h.hashValue = h.hash_value :=
    drained_iff (fun h : CNetHandler => h.in_session = true ∧ h.hashValue = h.hash_value) hashGetFirst_eq
      (fun _ _ _ hfirst hsafe => deleteNetHandler_safe hfirst hsafe)
      (fun _ _ _ hfirst hstays => deleteNetHandler_unsafe hfirst hstays) tables.session_hash.distinct
  have hpool : Drained HashList.hashGetFirst removeMsgMap tables.hash_map tables.hash_map.entries :=
    (drained_iff (fun _ : MsgBufMap => True) hashGetFirst_eq
      (fun _ m _ hfirst _ => entries_hashRemove hfirst (msgMap_match m))
      (fun _ _ _ _ h => absurd trivial h) tables.hash_map.distinct).mpr fun _ _ => trivial
  constructor
  · rintro ⟨hlinks, hs, hkeep, -⟩
    exact ⟨(drained_unchanged _).mp hlinks, hsessions.mp hs, (drained_unchanged _).mp hkeep⟩
  · rintro ⟨hlinks, hs, hkeep⟩
    exact ⟨(drained_unchanged _).mpr hlinks, hsessions.mpr hs, (drained_unchanged _).mpr hkeep, hpool⟩

/-- A table without entries. -/
def emptyTable (α : Type) [HashKey α] : HashList α where
  buckets := [[], [], []]
  placed := by
    intro i bucket hbucket e he
    have hmem : bucket ∈ [[], [], []] := List.mem_of_getElem? hbucket
    simp only [List.mem_cons, List.not_mem_nil, or_false, or_self] at hmem
    rw [hmem] at he
    cases he
  distinct := List.nodup_nil

/-- A table with one destination. -/
def oneDestination : HashList CDestLinks where
  buckets := [[⟨1, 3, 0, 0, 0⟩], [], []]
  placed := by
    intro i bucket hbucket e he
    rcases i with _ | i
    · cases hbucket
      rw [List.mem_singleton.mp he]
      rfl
    · have hmem : bucket ∈ [[], []] := List.mem_of_getElem? hbucket
      simp only [List.mem_cons, List.not_mem_nil, or_false, or_self] at hmem
      rw [hmem] at he
      cases he
  distinct := List.nodup_singleton _

/-- With one destination, the loop of `~CNetMgr` finds it again after it has deleted it. -/
theorem destination_deleted_again : ¬ ∀ tables, DrainsRight tables := by
  intro h
  have hlinks := (h ⟨oneDestination, emptyTable _, emptyTable _, emptyTable _⟩).links
  have hnone := (drained_unchanged oneDestination).mp hlinks
  exact absurd hnone (by decide)

end FStack.Analysis
