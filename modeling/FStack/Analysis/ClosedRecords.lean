import FStack.Analysis.CleanRecords

/-!
# The next socket with the same number

Every record that a socket finds, or leaves when it is closed, should be as it was at the start, and a socket should
have every filter that it asks for in the kqueue, and its events (`RecordsRight`).  It holds in every run whose steps
are safe (`records_right_of_safe`).

The step that is not safe in every run is `SendData`: a request that is not sent whole adds a reference for reading
that nothing takes away.  The others are a proxy that waits to write on a session, for which `KqueueCtrlAdd` takes the
filter for reading away, a connection that is given back with a descriptor beyond the table, and a descriptor that is
closed under a call.
-/

set_option autoImplicit false

namespace FStack.Analysis

open FStack.Model FStack.Model.FdWorld FStack.Prelude

variable {s : FdWorld} {fd : ℕ}
variable {id : ℕ} {timer : Bool} {op : FdStep}

/-! ## Keep-alive connections -/

/-- No call waits on the descriptor. -/
def NoCall (r : FdRecord) : Prop :=
  match r.kqobj with
  | some (.call _) => False
  | _ => True

instance (r : FdRecord) : Decidable (NoCall r) := by
  unfold NoCall
  split <;> infer_instance

/-- The fields of a connection that is not in the kqueue are replaced. -/
theorem Clean.setConn (h : Clean s) (id : ℕ) {conn : TcpKeepConn} (hold : (s.conns id).in_kqueue = false)
    (hnew : conn.in_kqueue = false) (hlist : conn.in_list = false)
    (hconn : ∀ fd, conn.osfd = some fd → s.owner fd = some (.keep id)) : Clean (s.setConn id conn) := by
  unfold FdWorld.setConn
  refine { h with
    keepObj := ?_, conn := ?_, attached := ?_
    idle := { h.idle with linked := ?_, listed := ?_, idle := ?_, timer := ?_ } } <;> dsimp only <;>
    grind [Function.update_apply]

theorem Clean.user_idle (h : Clean s) (hid : id ∈ s.users) :
    (s.conns id).in_kqueue = false ∧ (s.conns id).in_list = false := by
  rw [h.idle.linked, and_self, Bool.eq_false_iff]
  exact fun hin => (h.idle.idle id hin).1 hid

theorem Clean.keepCreate (h : Clean s) (hid : id ∈ s.users) (answer : Option ℕ) (ready : Bool) :
    Clean (s.keepCreate id answer ready) := by
  obtain ⟨hkq, hlist⟩ := h.user_idle hid
  unfold FdWorld.keepCreate
  split
  · exact h
  · split
    case h_1 => exact h.setConn id hkq hkq hlist nofun
    case h_2 fd hfd =>
      have hnone := socket_some hfd
      cases ready with
      | false => exact (h.openedClosed hnone _).setConn id hkq hkq hlist nofun
      | true =>
        refine (h.opened hnone (.keep id)).setConn id hkq hkq hlist ?_
        rintro n ⟨⟩
        exact Function.update_self ..

/-- The record of a connection that is not in the kqueue and on which no call waits. -/
theorem Clean.conn_free (h : Clean s) (hkq : (s.conns id).in_kqueue = false) (hfd : (s.conns id).osfd = some fd)
    (hcall : NoCall (s.records fd)) : s.records fd = {} := by
  have howner := h.conn id fd hfd
  refine h.free fd ?_
  unfold NoCall at hcall
  cases hobj : (s.records fd).kqobj with
  | none => rfl
  | some obj =>
    cases obj with
    | link n => exact absurd (h.linkObj fd n hobj) (by simp [howner])
    | session n => exact absurd (h.sessionObj fd n hobj) (by simp [howner])
    | call n => simp [hobj] at hcall
    | keep n =>
      obtain ⟨hown, hin, -⟩ := h.keepObj fd n hobj
      obtain rfl : id = n := by
        rw [howner] at hown
        simpa using hown
      simp [hkq] at hin

/-- A connection is reset, and goes to the pool. -/
theorem Clean.keepRelease (h : Clean s) (hkq : (s.conns id).in_kqueue = false) (huser : id ∉ s.users)
    (hpool : id ∉ s.pool) (htotal : id < s.total) (hrec : ∀ fd, (s.conns id).osfd = some fd → s.records fd = {}) :
    Clean (s.keepRelease id) := by
  have hlist : (s.conns id).in_list = false := (h.idle.linked id).trans hkq
  have hset : Clean (s.setConn id { s.conns id with dst_addr := (0, 0), osfd := none }) :=
    h.setConn id hkq hkq hlist nofun
  have hreset : Clean (s.keepReset id) := by
    unfold FdWorld.keepReset
    dsimp only
    split
    case h_1 => exact hset
    case h_2 fd hfd =>
      have howner := h.conn id fd hfd
      refine hset.closed (hrec fd hfd) ?_ ?_ ?_
      · intro n hn
        have := (h.link n fd hn).1
        simp [howner] at this
      · intro n hn
        dsimp only [FdWorld.setConn] at hn
        by_cases hne : n = id
        · subst hne
          rw [Function.update_self] at hn
          cases hn
        · rw [Function.update_of_ne hne] at hn
          have hown := h.conn n fd hn
          rw [howner] at hown
          exact hne (by simpa using hown.symm)
      · intro n hn
        by_contra hpos
        have := (h.session n fd hn (Nat.pos_of_ne_zero hpos)).1
        simp [howner] at this
  have hsame : (s.keepReset id).users = s.users ∧ (s.keepReset id).pool = s.pool ∧ (s.keepReset id).total = s.total ∧
      (s.keepReset id).conns id = { s.conns id with dst_addr := (0, 0), osfd := none } := by
    unfold FdWorld.keepReset
    dsimp only
    split <;> simp [FdWorld.setConn, FdWorld.closed, FdWorld.close]
  unfold FdWorld.keepRelease
  dsimp only
  split
  · exact hreset
  · obtain ⟨hu, hp, ht, hc⟩ := hsame
    refine { hreset with idle := { hreset.idle with idle := ?idle, user := ?user, pooled := ?pooled, pool_nodup := ?nodup } }
    case idle =>
      intro n hn
      obtain ⟨huser', hpool', hrest⟩ := hreset.idle.idle n hn
      refine ⟨huser', ?_, hrest⟩
      rw [List.mem_append, List.mem_singleton, not_or]
      refine ⟨hpool', ?_⟩
      rintro rfl
      rw [hc] at hn
      simp [hkq] at hn
    case user =>
      intro n hn
      obtain ⟨hpool', htotal'⟩ := hreset.idle.user n hn
      refine ⟨?_, htotal'⟩
      rw [List.mem_append, List.mem_singleton, not_or]
      refine ⟨hpool', ?_⟩
      rintro rfl
      exact huser (by rwa [hu] at hn)
    case pooled =>
      intro n hn
      rcases List.mem_append.mp hn with hn | hn
      · exact hreset.idle.pooled n hn
      · obtain rfl := List.mem_singleton.mp hn
        rwa [ht]
    case nodup =>
      have hnodup := hreset.idle.pool_nodup
      dsimp only
      rw [hp] at hnodup ⊢
      exact List.nodup_append.mpr ⟨hnodup, List.nodup_singleton id, by
        intro a ha b hb hab
        rw [List.mem_singleton.mp hb] at hab
        exact hpool (hab ▸ ha)⟩

/-- A connection leaves the kqueue and its list, in either order. -/
def leftIdle (s : FdWorld) (id fd : ℕ) : FdWorld :=
  { s with
    records := Function.update s.records fd {}
    filters := Function.update s.filters fd (deletedFilters (s.records fd) (s.filters fd) {.read})
    conns := Function.update s.conns id { s.conns id with in_kqueue := false, in_list := false }
    keep_hash := fun key => (s.keep_hash key).map (·.filter (· ≠ id))
    timers := s.timers.erase id }

theorem idleDetach_attached {id : ℕ} (hfd : (s.conns id).osfd = some fd) (hkq : (s.conns id).in_kqueue = true)
    (hlt : fd < s.maxfd) (hobj : (s.records fd).kqobj = some (.keep id)) (hb : Bounded (s.records fd) 1 0) :
    (s.idleDetach id).1 =
      { s with
        records := Function.update s.records fd {}
        filters := Function.update s.filters fd (deletedFilters (s.records fd) (s.filters fd) {.read})
        conns := Function.update s.conns id { s.conns id with in_kqueue := false }
        timers := s.timers.erase id } := by
  unfold FdWorld.idleDetach
  rw [hfd]
  dsimp only
  rw [if_pos hkq, delObj_clean (s := { s with timers := s.timers.erase id }) hlt hobj (by simpa [inMask] using hb)]
  rfl

theorem removeConn_linked (hlist : (s.conns id).in_list = true) :
    s.removeConn id =
      { s with
        conns := Function.update s.conns id { s.conns id with in_list := false }
        keep_hash := fun key => (s.keep_hash key).map (·.filter (· ≠ id)) } := by
  unfold FdWorld.removeConn
  rw [if_pos hlist]
  rfl

theorem Clean.attached_at (h : Clean s) (hkq : (s.conns id).in_kqueue = true) (hfd : (s.conns id).osfd = some fd) :
    fd < s.maxfd ∧ (s.records fd).kqobj = some (.keep id) ∧ Bounded (s.records fd) 1 0 := by
  obtain ⟨n, hn, hobj, hb⟩ := h.attached id hkq
  obtain rfl : fd = n := Option.some_inj.mp (hfd.symm.trans hn)
  exact ⟨h.lt hobj, hobj, hb⟩

theorem removeConn_idleDetach_eq (h : Clean s) (hkq : (s.conns id).in_kqueue = true)
    (hfd : (s.conns id).osfd = some fd) :
    ((s.removeConn id).idleDetach id).1 = leftIdle s id fd := by
  obtain ⟨hlt, hobj, hb⟩ := h.attached_at hkq hfd
  have hrem := removeConn_linked ((h.idle.linked id).trans hkq)
  rw [@idleDetach_attached (s.removeConn id) fd id (by simp [hrem, hfd]) (by simp [hrem, hkq]) (by simpa [hrem] using hlt)
    (by simpa [hrem] using hobj) (by simpa [hrem] using hb), hrem]
  simp [Analysis.leftIdle]

theorem idleDetach_removeConn_eq (h : Clean s) (hkq : (s.conns id).in_kqueue = true)
    (hfd : (s.conns id).osfd = some fd) :
    (s.idleDetach id).1.removeConn id = leftIdle s id fd := by
  obtain ⟨hlt, hobj, hb⟩ := h.attached_at hkq hfd
  rw [idleDetach_attached hfd hkq hlt hobj hb, removeConn_linked (by simpa using (h.idle.linked id).trans hkq)]
  simp [Analysis.leftIdle]

theorem Clean.leftIdle (h : Clean s) (hkq : (s.conns id).in_kqueue = true) (hfd : (s.conns id).osfd = some fd) :
    Clean (leftIdle s id fd) := by
  obtain ⟨-, hobj, -⟩ := h.attached_at hkq hfd
  obtain ⟨hash, hhash⟩ : ∃ hash : ℕ × ℕ → Option (List ℕ),
      hash = fun key => (s.keep_hash key).map (·.filter (· ≠ id)) := ⟨_, rfl⟩
  have hmem : ∀ key list, hash key = some list → ∀ n ∈ list, n ≠ id ∧ ∃ list', s.keep_hash key = some list' ∧
      n ∈ list' := by
    intro key list hkey n hn
    rw [hhash] at hkey
    obtain ⟨list', hlist', rfl⟩ := Option.map_eq_some_iff.mp hkey
    obtain ⟨hn', hne⟩ := List.mem_filter.mp hn
    exact ⟨by simpa using hne, list', hlist', hn'⟩
  have hsome : ∀ key, hash key = none → s.keep_hash key = none := by simp [hhash]
  unfold Analysis.leftIdle
  rw [← hhash]
  constructor
  case idle =>
    refine { h.idle with linked := ?_, listed := ?_, idle := ?_, timer := ?_ } <;> dsimp only <;>
      grind [Function.update_apply]
  all_goals
    dsimp only
    grind [Function.update_apply]

theorem Clean.getTcpKeepConn (h : Clean s) (dst : ℕ × ℕ) : Clean (s.getTcpKeepConn dst) := by
  unfold FdWorld.getTcpKeepConn
  split
  case h_1 id rest hlist =>
    have hkq := h.idle.listed dst _ id hlist List.mem_cons_self
    obtain ⟨fd, hfd, -, -⟩ := h.attached id hkq
    obtain ⟨-, hpool, htotal, -⟩ := h.idle.idle id hkq
    rw [removeConn_idleDetach_eq h hkq hfd]
    have hleft := h.leftIdle hkq hfd
    have hnew : ((Analysis.leftIdle s id fd).conns id).in_kqueue = false := by simp [Analysis.leftIdle]
    have hpool' : id ∉ (Analysis.leftIdle s id fd).pool := hpool
    have htotal' : id < (Analysis.leftIdle s id fd).total := htotal
    generalize Analysis.leftIdle s id fd = w at hleft hnew hpool' htotal'
    exact { hleft with idle := { hleft.idle with idle := by grind, user := by grind } }
  case h_2 id pool hpool _ =>
    have hmem : id ∈ s.pool := by rw [hpool]; exact List.mem_cons_self
    have hkq : (s.conns id).in_kqueue = false := by
      rw [Bool.eq_false_iff]
      exact fun hin => (h.idle.idle id hin).2.1 hmem
    have hset := @Clean.setConn s h id { s.conns id with dst_addr := dst } hkq hkq
      ((h.idle.linked id).trans hkq) (h.conn id)
    have hnew : ((s.setConn id { s.conns id with dst_addr := dst }).conns id).in_kqueue = false := by
      simp [FdWorld.setConn, hkq]
    have hpool' : (s.setConn id { s.conns id with dst_addr := dst }).pool = id :: pool := hpool
    have husers : (s.setConn id { s.conns id with dst_addr := dst }).users = s.users := rfl
    generalize s.setConn id { s.conns id with dst_addr := dst } = w at hset hnew hpool' husers
    have hidle := hset.idle
    rw [hpool', husers] at hidle
    obtain ⟨hnot, hnodup⟩ := List.nodup_cons.mp hidle.pool_nodup
    refine { hset with idle := { hidle with
      idle := ?idle, user := ?user, pool_nodup := hnodup
      pooled := fun n hn => hidle.pooled n (List.mem_cons_of_mem id hn) } }
    case idle =>
      intro n hn
      obtain ⟨huser, hmem', hrest⟩ := hidle.idle n hn
      refine ⟨?_, fun hmem => hmem' (List.mem_cons_of_mem id hmem), hrest⟩
      rw [Finset.mem_insert, not_or]
      refine ⟨?_, huser⟩
      rintro rfl
      exact hmem' List.mem_cons_self
    case user =>
      intro n hn
      rcases Finset.mem_insert.mp hn with rfl | hn
      · exact ⟨hnot, hidle.pooled n List.mem_cons_self⟩
      · exact ⟨fun hmem => (hidle.user n hn).1 (List.mem_cons_of_mem id hmem), (hidle.user n hn).2⟩
  case h_3 hpool _ =>
    have hkq : (s.conns s.total).in_kqueue = false := by
      rw [Bool.eq_false_iff]
      exact fun hin => lt_irrefl _ (h.idle.idle s.total hin).2.2.1
    have hset := @Clean.setConn s h s.total { s.conns s.total with dst_addr := dst } hkq hkq
      ((h.idle.linked s.total).trans hkq) (h.conn s.total)
    have hnew : ((s.setConn s.total { s.conns s.total with dst_addr := dst }).conns s.total).in_kqueue = false := by
      simp [FdWorld.setConn, hkq]
    have htotal : (s.setConn s.total { s.conns s.total with dst_addr := dst }).total = s.total := rfl
    have hpool' : (s.setConn s.total { s.conns s.total with dst_addr := dst }).pool = [] := hpool
    have husers : (s.setConn s.total { s.conns s.total with dst_addr := dst }).users = s.users := rfl
    generalize s.setConn s.total { s.conns s.total with dst_addr := dst } = w at hset hnew htotal hpool' husers
    have hidle := hset.idle
    rw [htotal, hpool', husers] at hidle
    refine { hset with idle := { hset.idle with idle := ?idle, user := ?user, pooled := ?pooled } }
    case idle =>
      intro n hn
      obtain ⟨huser, -, hlt, hrest⟩ := hidle.idle n hn
      refine ⟨?_, ?_, Nat.lt_succ_of_lt hlt, hrest⟩
      · rw [Finset.mem_insert, not_or]
        exact ⟨Nat.ne_of_lt hlt, huser⟩
      · dsimp only
        rw [hpool']
        exact List.not_mem_nil
    case user =>
      dsimp only
      rw [hpool']
      intro n hn
      refine ⟨List.not_mem_nil, ?_⟩
      rcases Finset.mem_insert.mp hn with rfl | hn
      · exact Nat.lt_succ_self _
      · exact Nat.lt_succ_of_lt (hidle.user n hn).2
    case pooled =>
      dsimp only
      rw [hpool']
      exact fun n hn => absurd hn List.not_mem_nil

/-- An idle connection is closed. -/
theorem Clean.closeIdleTcpKeep (h : Clean s) (hkq : (s.conns id).in_kqueue = true) :
    Clean (s.closeIdleTcpKeep id) := by
  obtain ⟨fd, hfd, -, -⟩ := h.attached id hkq
  obtain ⟨huser, hpool, htotal, hip, hport, hlist⟩ := h.idle.idle id hkq
  have hremove : s.removeTcpKeepConn id = Analysis.leftIdle s id fd := by
    unfold FdWorld.removeTcpKeepConn
    dsimp only
    rw [if_neg (not_or.mpr ⟨hip, hport⟩)]
    split
    case h_1 hnone => exact absurd hnone hlist
    case h_2 => exact idleDetach_removeConn_eq h hkq hfd
  unfold FdWorld.closeIdleTcpKeep
  rw [hremove]
  refine (h.leftIdle hkq hfd).keepRelease (by simp [Analysis.leftIdle]) huser hpool htotal ?_
  intro n hn
  obtain rfl : n = fd := by
    simp only [Analysis.leftIdle, Function.update_self, hfd] at hn
    exact (Option.some_inj.mp hn).symm
  exact Function.update_self ..

/-- The list of a destination is found or made. -/
theorem Clean.findCreate (h : Clean s) (dst : ℕ × ℕ) :
    Clean { s with keep_hash := Function.update s.keep_hash dst (some ((s.keep_hash dst).getD [])) } := by
  refine { h with idle := { h.idle with listed := ?listed, idle := ?idle } }
  case listed =>
    intro key list id hkey hid
    dsimp only at hkey
    by_cases hne : key = dst
    · subst hne
      rw [Function.update_self, Option.some_inj] at hkey
      cases hold : s.keep_hash key with
      | none =>
        rw [hold] at hkey
        rw [← hkey] at hid
        exact absurd hid List.not_mem_nil
      | some old =>
        rw [hold] at hkey
        exact h.idle.listed key list id (by rw [hold, ← hkey]; rfl) hid
    · rw [Function.update_of_ne hne] at hkey
      exact h.idle.listed key list id hkey hid
  case idle =>
    intro id hid
    obtain ⟨huser, hpool, htotal, hip, hport, hlist⟩ := h.idle.idle id hid
    refine ⟨huser, hpool, htotal, hip, hport, ?_⟩
    dsimp only
    by_cases hne : (s.conns id).dst_addr = dst
    · rw [hne, Function.update_self]
      exact Option.some_ne_none _
    · rwa [Function.update_of_ne hne]

/-- A connection is added to the kqueue, and to the list of its destination. -/
theorem Clean.attach (h : Clean s) (hkq : (s.conns id).in_kqueue = false) (huser : id ∉ s.users) (hpool : id ∉ s.pool)
    (htotal : id < s.total) (hfd : (s.conns id).osfd = some fd) (hrec : s.records fd = {}) (hlt : fd < s.maxfd)
    (hip : (s.conns id).dst_addr.1 ≠ 0) (hport : (s.conns id).dst_addr.2 ≠ 0) (filters : ℕ → KqEvents) :
    Clean { s with
      records := Function.update s.records fd (added { kqobj := some (.keep id) } {.read})
      filters := filters
      conns := Function.update s.conns id { s.conns id with in_kqueue := true, in_list := true }
      timers := insert id s.timers
      keep_hash := Function.update s.keep_hash (s.conns id).dst_addr
        (some ((s.keep_hash (s.conns id).dst_addr).getD [] ++ [id])) } := by
  have hb : Bounded (added { kqobj := some (.keep id) } {.read}) 1 0 := by
    simpa [inMask] using (Bounded.empty (some (NtfyObj.keep id))).add {.read}
  have hobj : (added { kqobj := some (.keep id) } {.read}).kqobj = some (.keep id) := rfl
  have hlisted : ∀ key list n, Function.update s.keep_hash (s.conns id).dst_addr
      (some ((s.keep_hash (s.conns id).dst_addr).getD [] ++ [id])) key = some list → n ∈ list →
      n = id ∨ (s.conns n).in_kqueue = true := by
    intro key list n hkey hn
    by_cases hne : key = (s.conns id).dst_addr
    · rw [hne, Function.update_self, Option.some_inj] at hkey
      rw [← hkey, List.mem_append, List.mem_singleton] at hn
      rcases hn with hn | hn
      · cases hold : s.keep_hash (s.conns id).dst_addr with
        | none =>
          rw [hold] at hn
          exact absurd hn List.not_mem_nil
        | some old =>
          rw [hold] at hn
          exact .inr (h.idle.listed _ old n hold hn)
      · exact .inl hn
    · rw [Function.update_of_ne hne] at hkey
      exact .inr (h.idle.listed key list n hkey hn)
  generalize added { kqobj := some (.keep id) } {.read} = r at hb hobj
  constructor
  case idle =>
    refine { h.idle with linked := ?_, listed := ?_, idle := ?_, timer := ?_ } <;> dsimp only <;>
      grind [Function.update_apply]
  all_goals
    dsimp only
    grind [Function.update_apply]

/-- The connection is given back, and can wait for its next use. -/
def CanIdle (s : FdWorld) (id : ℕ) (timer : Bool) : Prop :=
  ((s.conns id).dst_addr.1 ≠ 0 ∧ (s.conns id).dst_addr.2 ≠ 0) ∧ timer = true

instance (s : FdWorld) (id : ℕ) (timer : Bool) : Decidable (CanIdle s id timer) := by
  unfold CanIdle
  infer_instance

/-- `CacheTcpKeepConn` of a connection that cannot wait. -/
theorem cacheTcpKeepConn_refused (h : Clean s) (hkq : (s.conns id).in_kqueue = false)
    (hno : ¬ CanIdle s id timer ∨ (s.conns id).osfd = none) :
    ∃ hash, s.cacheTcpKeepConn id timer = ({ s with keep_hash := hash }, false) ∧
      Clean { s with keep_hash := hash } := by
  unfold FdWorld.cacheTcpKeepConn
  dsimp only
  by_cases hdst : (s.conns id).dst_addr.1 = 0 ∨ (s.conns id).dst_addr.2 = 0
  · rw [if_pos hdst]
    exact ⟨s.keep_hash, rfl, h⟩
  · rw [if_neg hdst]
    refine ⟨_, ?_, h.findCreate (s.conns id).dst_addr⟩
    unfold FdWorld.idleAttach
    dsimp only
    cases hfd : (s.conns id).osfd with
    | none => rfl
    | some fd =>
      have htimer : timer = false := by
        rw [Bool.eq_false_iff]
        intro htrue
        rcases hno with hno | hno
        · exact hno ⟨not_or.mp hdst, htrue⟩
        · rw [hfd] at hno
          cases hno
      simp only [hkq, htimer, Bool.false_eq_true, if_false]

/-- `CacheTcpKeepConn` of a connection that can wait. -/
theorem cacheTcpKeepConn_attach (h : Clean s) (hkq : (s.conns id).in_kqueue = false) (hfd : (s.conns id).osfd = some fd)
    (hrec : s.records fd = {}) (hlt : fd < s.maxfd) (hcan : CanIdle s id timer) :
    s.cacheTcpKeepConn id timer =
      ({ s with
          records := Function.update s.records fd (added { kqobj := some (.keep id) } {.read})
          filters := Function.update s.filters fd (addedFilters {} (s.filters fd) {.read})
          conns := Function.update s.conns id { s.conns id with in_kqueue := true, in_list := true }
          timers := insert id s.timers
          keep_hash := Function.update s.keep_hash (s.conns id).dst_addr
            (some ((s.keep_hash (s.conns id).dst_addr).getD [] ++ [id])) }, true) := by
  have hlist : (s.conns id).in_list = false := (h.idle.linked id).trans hkq
  unfold FdWorld.cacheTcpKeepConn FdWorld.idleAttach
  dsimp only
  rw [if_neg (not_or.mpr hcan.1), hfd]
  simp only [hkq, hcan.2, Bool.false_eq_true, if_false, if_true]
  rw [addObj_eq (by exact hlt) (by exact hrec)]
  simp [FdWorld.insertConn, FdWorld.setConn, hlist, hfd]

theorem Clean.freeTcpKeepConn (h : Clean s) (force_free timer : Bool) (hkq : (s.conns id).in_kqueue = false)
    (huser : id ∉ s.users) (hpool : id ∉ s.pool) (htotal : id < s.total) (hsafe : ∀ fd, (s.conns id).osfd = some fd →
      NoCall (s.records fd) ∧ (force_free = true ∨ ¬ CanIdle s id timer ∨ fd < s.maxfd)) :
    Clean (s.freeTcpKeepConn id force_free timer) := by
  have hrec : ∀ fd, (s.conns id).osfd = some fd → s.records fd = {} := fun fd hfd =>
    h.conn_free hkq hfd (hsafe fd hfd).1
  unfold FdWorld.freeTcpKeepConn
  cases force_free with
  | true => exact h.keepRelease hkq huser hpool htotal hrec
  | false =>
    by_cases hno : ¬ CanIdle s id timer ∨ (s.conns id).osfd = none
    · obtain ⟨hash, heq, hclean⟩ := cacheTcpKeepConn_refused h hkq hno
      rw [heq]
      exact hclean.keepRelease hkq huser hpool htotal hrec
    · obtain ⟨hcan, hsome⟩ := not_or.mp hno
      rw [not_not] at hcan
      obtain ⟨fd, hfd⟩ := Option.ne_none_iff_exists'.mp hsome
      have hlt : fd < s.maxfd := by
        rcases (hsafe fd hfd).2 with hforce | hnot | hlt
        · cases hforce
        · exact absurd hcan hnot
        · exact hlt
      rw [cacheTcpKeepConn_attach h hkq hfd (hrec fd hfd) hlt hcan]
      exact h.attach hkq huser hpool htotal hfd (hrec fd hfd) hlt hcan.1.1 hcan.1.2 _

/-- A connection that is in the kqueue after it was given back. -/
theorem freeTcpKeepConn_delivered (h : Clean s) (hkq : (s.conns id).in_kqueue = false)
    (hfd : (s.conns id).osfd = some fd) (hcall : NoCall (s.records fd)) (hlt : fd < s.maxfd) (hcan : CanIdle s id timer)
    :
    Delivered (s.freeTcpKeepConn id false timer) (.keep id) fd {.read} := by
  unfold FdWorld.freeTcpKeepConn Delivered
  rw [cacheTcpKeepConn_attach h hkq hfd (h.conn_free hkq hfd hcall) hlt hcan]
  dsimp only
  rw [if_neg (by simp), if_pos rfl]
  dsimp only
  rw [Function.update_self, Function.update_self]
  exact ⟨addedFilters_empty _ _, rfl⟩

/-! ## Steps -/

/-- The socket of a step is new for the object. -/
def NewSocket (s : FdWorld) (old : Option ℕ) (answer : Option ℕ) (ready : Bool) (fd : ℕ) : Prop :=
  ¬ old.any (0 < ·) ∧ s.socket answer = some fd ∧ ready = true ∧ fd < s.maxfd

/-- An object that registers a socket for the first time has its filters in the kqueue, and is notified; and so has a
link that could not send a whole request, and a session on which a proxy begins to wait. -/
def Registers (s : FdWorld) : FdStep → Prop
  | .linkCreate id udp answer ready => ∀ fd, NewSocket s (s.links id).fd answer ready fd →
      ((s.linkCreate id udp answer ready).links id).fd = some fd ∧
        Delivered (s.linkCreate id udp answer ready) (.link id) fd ((s.linkCreate id udp answer ready).links id).events
  | .linkSend id false => ∀ fd, (s.links id).fd = some fd → Delivered (s.linkSend id false) (.link id) fd {.write}
  | .keepFree id false timer => ∀ fd, id ∈ s.users → (s.conns id).osfd = some fd → fd < s.maxfd →
      CanIdle s id timer → Delivered (s.step (.keepFree id false timer)) (.keep id) fd {.read}
  | .sessionCreate id answer ready => ∀ fd, NewSocket s (s.sessions id).osfd answer ready fd →
      Delivered (s.sessionCreate id answer ready) (.session id) fd {.read}
  | .writeWait proxy id osfd => ∀ fd, (s.sessions id).osfd = some fd → s.writeWait proxy id osfd ≠ s →
      Delivered (s.writeWait proxy id osfd) (.session id) fd {.read, .write}
  | .hangup n answer ready => ∀ id fd, (s.records n).kqobj = some (.session id) → fd < s.maxfd → 0 < fd →
      ((s.sessionHangup id answer ready).sessions id).osfd = some fd →
      Delivered (s.sessionHangup id answer ready) (.session id) fd {.read}
  | .wait id fd events => s.calls id = none → (s.wait id fd events).calls id = some (fd, events) →
      Delivered (s.wait id fd events) (.call id) fd events
  | _ => True

/-- What a step has to do: every record that a socket finds or leaves is as it was at the start, an object that asks
for filters has them and is notified, and every open descriptor has all the filters that were asked for. -/
def RecordsRight (s : FdWorld) (op : FdStep) : Prop :=
  (∀ r ∈ (s.step op).turns, r = {}) ∧ Registers s op ∧ Listening (s.step op)

/-- A request is sent whole; a connection is given back when no call waits on it, and its descriptor has a record if it
is to wait; a proxy cannot wait to write; and the application closes no descriptor on which a call
waits. -/
def RecordsSafe (s : FdWorld) : FdStep → Prop
  | .linkSend _ whole => whole = true
  | .keepFree id force_free timer => ∀ fd ∈ (s.conns id).osfd,
      NoCall (s.records fd) ∧ (force_free = true ∨ ¬ CanIdle s id timer ∨ fd < s.maxfd)
  | .writeWait _ id osfd => Refused s id osfd
  | .appClose fd => NoCall (s.records fd)
  | _ => True

instance (s : FdWorld) (op : FdStep) : Decidable (RecordsSafe s op) := by
  cases op <;> unfold RecordsSafe <;> infer_instance

theorem Clean.noCall_closed (h : Clean s) (howner : s.owner fd = some .app) (hcall : NoCall (s.records fd)) :
    s.records fd = {} := by
  refine h.free fd ?_
  unfold NoCall at hcall
  cases hobj : (s.records fd).kqobj with
  | none => rfl
  | some obj =>
    cases obj with
    | link n => exact absurd (h.linkObj fd n hobj) (by simp [howner])
    | session n => exact absurd (h.sessionObj fd n hobj) (by simp [howner])
    | keep n => exact absurd (h.keepObj fd n hobj).1 (by simp [howner])
    | call n => simp [hobj] at hcall

/-- A user gives a connection back. -/
theorem Clean.eraseUser (h : Clean s) (id : ℕ) : Clean { s with users := s.users.erase id } := by
  refine { h with idle := { h.idle with idle := ?idle, user := ?user } }
  case idle =>
    intro n hn
    obtain ⟨huser, hrest⟩ := h.idle.idle n hn
    exact ⟨fun hmem => huser (Finset.mem_of_mem_erase hmem), hrest⟩
  case user => exact fun n hn => h.idle.user n (Finset.mem_of_mem_erase hn)

/-- The timer of a connection is over. -/
theorem Clean.eraseTimer (h : Clean s) (id : ℕ) : Clean { s with timers := s.timers.erase id } :=
  { h with idle := { h.idle with timer := fun n hn => h.idle.timer n (Finset.mem_of_mem_erase hn) } }

theorem Clean.step (h : Clean s) (hsafe : RecordsSafe s op) : Clean (s.step op) := by
  cases op with
  | linkCreate id udp answer ready => exact h.linkCreate id udp answer ready
  | linkSend id whole =>
    obtain rfl : whole = true := hsafe
    exact h.linkSend id
  | linkOutput id fails drained => exact h.linkOutput id fails drained
  | linkDestroy id => exact h.linkDestroy id
  | keepGet dst => exact h.getTcpKeepConn dst
  | keepCreate id answer ready =>
    unfold FdWorld.step
    dsimp only
    split
    · rename_i hid
      exact h.keepCreate hid answer ready
    · exact h
  | keepFree id force_free timer =>
    unfold FdWorld.step
    dsimp only
    split
    · rename_i hid
      obtain ⟨hpool, htotal⟩ := h.idle.user id hid
      exact (h.eraseUser id).freeTcpKeepConn force_free timer (h.user_idle hid).1 (Finset.notMem_erase id _) hpool htotal hsafe
    · exact h
  | keepTimeout id =>
    unfold FdWorld.step
    dsimp only
    split
    · rename_i hid
      have hkq := h.idle.timer id hid
      exact (h.eraseTimer id).closeIdleTcpKeep hkq
    · exact h
  | sessionCreate id answer ready => exact h.sessionCreate id answer ready
  | sessionClose id => exact h.sessionClose id
  | writeWait proxy id osfd =>
    have heq : s.step (.writeWait proxy id osfd) = s := writeWait_refused hsafe proxy
    rwa [heq]
  | writeWake proxy id =>
    have heq : s.step (.writeWake proxy id) = s := h.writeWake_eq proxy id
    rwa [heq]
  | hangup fd answer ready =>
    unfold FdWorld.step FdWorld.hangup
    dsimp only
    split
    case h_1 => exact h
    case h_2 id _ => exact h.linkDestroy id
    case h_3 id hobj => exact h.closeIdleTcpKeep (h.keepObj fd id hobj).2.1
    case h_4 id _ => exact h.sessionHangup id answer ready
    case h_5 id _ => exact h.callHangup id
  | wait id fd events => exact h.wait id fd events
  | wake id => exact h.wake id
  | appOpen answer =>
    unfold FdWorld.step
    dsimp only
    split
    · exact h
    · rename_i fd hfd
      exact h.opened (socket_some hfd) .app
  | appClose fd =>
    unfold FdWorld.step
    dsimp only
    split
    · rename_i howner
      refine h.close (h.noCall_closed howner hsafe) ?_ ?_ ?_
      · intro n hn
        have := (h.link n fd hn).1
        simp [howner] at this
      · intro n hn
        have := h.conn n fd hn
        simp [howner] at this
      · intro n hn
        by_contra hpos
        have := (h.session n fd hn (Nat.pos_of_ne_zero hpos)).1
        simp [howner] at this
    · exact h

theorem Clean.sessionClose_osfd {id : ℕ} (hfd : ((s.sessionClose id).sessions id).osfd = some fd) : fd = 0 := by
  unfold FdWorld.sessionClose at hfd
  split at hfd
  case h_1 hnone =>
    rw [hnone] at hfd
    cases hfd
  case h_2 n hn =>
    split at hfd
    case isTrue => simp [FdWorld.closed, FdWorld.close, FdWorld.setSession] at hfd
    case isFalse hpos =>
      rw [hn] at hfd
      cases hfd
      omega

/-- The new socket of a session that has failed. -/
theorem sessionHangup_delivered (h : Clean s) {answer : Option ℕ} {ready : Bool} (hlt : fd < s.maxfd) (hpos : 0 < fd)
    (hfd : ((s.sessionHangup id answer ready).sessions id).osfd = some fd) :
    Delivered (s.sessionHangup id answer ready) (.session id) fd {.read} := by
  have hclosed := (h.ctrlDel (s.sessions id).osfd (s.sessions id).events).sessionClose id
  have hmax := sessionClose_maxfd (s.kqueueCtrlDel (s.sessions id).osfd (s.sessions id).events).1 id
  rw [ctrlDel_maxfd] at hmax
  unfold FdWorld.sessionHangup at hfd ⊢
  have hosfd := @Clean.sessionClose_osfd (s.kqueueCtrlDel (s.sessions id).osfd (s.sessions id).events).1 fd id
  generalize (s.kqueueCtrlDel (s.sessions id).osfd (s.sessions id).events).1.sessionClose id = w at *
  cases hsocket : w.socket answer with
  | none =>
    unfold FdWorld.sessionSocket at hfd
    rw [hsocket] at hfd
    exact absurd (hosfd hfd) (by omega)
  | some n =>
    cases ready with
    | false =>
      unfold FdWorld.sessionSocket at hfd
      rw [hsocket] at hfd
      exact absurd (hosfd hfd) (by omega)
    | true =>
      rcases lt_or_ge n w.maxfd with hn | hn
      · have heq := sessionSocket_eq hclosed id hsocket hn
        obtain rfl : n = fd := by
          rw [heq] at hfd
          simpa [FdWorld.setSession] using hfd
        exact sessionSocket_delivered hclosed id hsocket hn
      · unfold FdWorld.sessionSocket at hfd
        rw [hsocket] at hfd
        dsimp only at hfd
        rw [if_pos rfl, ntfyReg_ge (by exact hn), ctrlAdd_ge (by exact hn)] at hfd
        obtain rfl : n = fd := by simpa [FdWorld.setSession] using hfd
        omega

theorem Clean.registers (h : Clean s) (hsafe : RecordsSafe s op) : Registers s op := by
  cases op with
  | linkCreate id udp answer ready =>
    rintro fd ⟨hhas, hfd, rfl, hlt⟩
    exact linkCreate_delivered h udp hhas hfd hlt
  | sessionCreate id answer ready =>
    rintro fd ⟨hhas, hfd, rfl, hlt⟩
    unfold FdWorld.sessionCreate
    rw [if_neg hhas]
    exact sessionSocket_delivered h id hfd hlt
  | hangup n answer ready => exact fun id fd _ hlt hpos hfd => sessionHangup_delivered h hlt hpos hfd
  | linkSend id whole =>
    obtain rfl : whole = true := hsafe
    trivial
  | writeWait proxy id osfd => exact fun fd _ hne => absurd (writeWait_refused hsafe proxy) hne
  | wait id fd events => exact fun hidle hwait => wait_delivered h hidle hwait
  | keepFree id force_free timer =>
    cases force_free with
    | true => trivial
    | false =>
      intro fd hid hfd hlt hcan
      unfold FdWorld.step
      dsimp only
      rw [if_pos hid]
      have herase : Clean { s with users := s.users.erase id } := h.eraseUser id
      exact freeTcpKeepConn_delivered herase (h.user_idle hid).1 hfd (hsafe fd hfd).1 hlt hcan
  | linkOutput | linkDestroy | keepGet | keepCreate | keepTimeout | sessionClose | writeWake | wake | appOpen
  | appClose => trivial

/-! ## The filters -/

theorem Listening.linkDestroy (hl : Listening s) (id : ℕ) : Listening (s.linkDestroy id) := by
  unfold FdWorld.linkDestroy
  split
  · exact hl
  · exact (hl.delObj _ _ _).closed _

theorem Listening.linkCreate (hl : Listening s) (h : Clean s) (id : ℕ) (udp : Bool) (answer : Option ℕ)
    (ready : Bool) : Listening (s.linkCreate id udp answer ready) := by
  unfold FdWorld.linkCreate
  split
  · exact hl
  · split
    · exact hl
    · rename_i fd hfd
      have hrec := h.records_of_closed (socket_some hfd)
      have hopen := hl.opened hrec (.link id)
      cases ready with
      | false => exact hopen.closed fd
      | true =>
        rw [if_pos rfl]
        dsimp only
        generalize (insert EvFilter.read (if udp = true then _ else _) : KqEvents) = events
        have hadd := @Listening.addObj _ fd (.link id) hopen (fun _ => by simp [FdWorld.opened, hrec]) events
        split
        · exact hadd
        · exact hadd.closed fd

theorem Listening.idleDetach (hl : Listening s) (id : ℕ) : Listening (s.idleDetach id).1 := by
  unfold FdWorld.idleDetach
  split
  · exact hl
  · split
    · have hdel := fun fd => Listening.delObj (s := { s with timers := s.timers.erase id }) hl (.keep id) (some fd) {.read}
      dsimp only
      split
      · exact hdel _
      · exact hdel _
    · exact hl

theorem Listening.removeConn (hl : Listening s) (id : ℕ) : Listening (s.removeConn id) := by
  unfold FdWorld.removeConn
  split
  · exact hl
  · exact hl

theorem Listening.keepRelease (hl : Listening s) (id : ℕ) : Listening (s.keepRelease id) := by
  have hreset : Listening (s.keepReset id) := by
    unfold FdWorld.keepReset
    dsimp only
    split
    · exact hl
    · rename_i fd _
      exact Listening.closed (s := s.setConn id _) hl fd
  unfold FdWorld.keepRelease
  dsimp only
  split
  · exact hreset
  · exact hreset

theorem Listening.closeIdleTcpKeep (hl : Listening s) (id : ℕ) : Listening (s.closeIdleTcpKeep id) := by
  refine Listening.keepRelease ?_ id
  unfold FdWorld.removeTcpKeepConn
  dsimp only
  split
  · exact hl
  · split
    · exact hl
    · exact (hl.idleDetach id).removeConn id

/-- A descriptor is free for a connection that is not in the kqueue. -/
theorem Clean.conn_events (h : Clean s) (hkq : (s.conns id).in_kqueue = false)
    (hobj : (s.records fd).kqobj = none ∨ (s.records fd).kqobj = some (.keep id)) : (s.records fd).events = ∅ := by
  rcases hobj with hfree | hown
  · rw [h.free fd hfree]
  · have hin := (h.keepObj fd id hown).2.1
    rw [hkq] at hin
    cases hin

theorem Listening.idleAttach (hl : Listening s) (timer : Bool) (hfree : ∀ fd, (s.conns id).in_kqueue = false →
      (s.records fd).kqobj = none ∨ (s.records fd).kqobj = some (.keep id) → (s.records fd).events = ∅) :
    Listening (s.idleAttach id timer).1 := by
  unfold FdWorld.idleAttach
  split
  · exact hl
  · rename_i fd _
    split
    · exact hl
    · rename_i hkq
      split
      · have hadd := @Listening.addObj { s with timers := insert id s.timers } fd (.keep id) hl
          (hfree fd (Bool.eq_false_iff.mpr hkq)) {.read}
        dsimp only
        split
        · exact hadd
        · exact hadd
      · exact hl

theorem Listening.freeTcpKeepConn (hl : Listening s) (h : Clean s) (id : ℕ) (force_free timer : Bool) :
    Listening (s.freeTcpKeepConn id force_free timer) := by
  have hcache : Listening (s.cacheTcpKeepConn id timer).1 := by
    unfold FdWorld.cacheTcpKeepConn
    dsimp only
    split
    · exact hl
    · have hattach := fun hash => @Listening.idleAttach { s with keep_hash := hash } id hl timer
        fun fd hkq hobj => h.conn_events hkq hobj
      split
      · unfold FdWorld.insertConn
        split
        · exact hattach _
        · exact hattach _
      · exact hattach _
  unfold FdWorld.freeTcpKeepConn
  split
  · exact hl.keepRelease id
  · dsimp only
    split
    · exact hcache
    · exact hcache.keepRelease id

theorem Listening.keepCreate (hl : Listening s) (h : Clean s) (id : ℕ) (answer : Option ℕ) (ready : Bool) :
    Listening (s.keepCreate id answer ready) := by
  unfold FdWorld.keepCreate
  split
  · exact hl
  · split
    · exact hl
    · rename_i fd hfd
      have hopen := hl.opened (h.records_of_closed (socket_some hfd)) (.keep id)
      cases ready with
      | true => exact hopen
      | false => exact hopen.closed fd

theorem Listening.getTcpKeepConn (hl : Listening s) (dst : ℕ × ℕ) : Listening (s.getTcpKeepConn dst) := by
  unfold FdWorld.getTcpKeepConn
  split
  · exact (hl.removeConn _).idleDetach _
  · exact hl
  · exact hl

theorem Listening.sessionSocket (hl : Listening s) (h : Clean s) (id : ℕ) (answer : Option ℕ) (ready : Bool) :
    Listening (s.sessionSocket id answer ready) := by
  unfold FdWorld.sessionSocket
  split
  · exact hl
  · rename_i fd hfd
    have hrec := h.records_of_closed (socket_some hfd)
    have hopen := hl.opened hrec (.session id)
    cases ready with
    | false => exact hopen.closed fd
    | true =>
      have hset : Listening ((s.opened fd (.session id)).setSession id
          { s.sessions id with osfd := some fd, events := insert .read (s.sessions id).events }) := hopen
      refine (hset.ntfyReg (some fd) (some (.session id))).ctrlAdd ?_ {.read}
      rw [ntfyReg_events]
      simp [FdWorld.setSession, FdWorld.opened, hrec]

theorem Listening.sessionClose (hl : Listening s) (id : ℕ) : Listening (s.sessionClose id) := by
  unfold FdWorld.sessionClose
  split
  · exact hl
  · rename_i fd _
    split
    · have hreg := (hl.ctrlDel (some fd) {.read}).ntfyReg (some fd) none
      exact Listening.closed (s := FdWorld.setSession _ id _) hreg fd
    · exact hl

theorem Listening.wait (hl : Listening s) (h : Clean s) (id fd : ℕ) (events : KqEvents) :
    Listening (s.wait id fd events) := by
  rcases h.wait_cases id fd events with heq | ⟨-, -, -, hrec, heq⟩
  · rwa [heq]
  · rw [heq]
    exact Listening.update (s := s) hl fun _ => by
      simpa [added] using addedFilters_empty (s.filters fd) events

theorem Listening.wake (hl : Listening s) (id : ℕ) : Listening (s.wake id) := by
  unfold FdWorld.wake
  split
  · exact hl
  · exact hl.delObj _ _ _

theorem Listening.hangup (hl : Listening s) (h : Clean s) (fd : ℕ) (answer : Option ℕ) (ready : Bool) :
    Listening (s.hangup fd answer ready) := by
  unfold FdWorld.hangup
  split
  · exact hl
  · exact hl.linkDestroy _
  · exact hl.closeIdleTcpKeep _
  · rename_i id _
    exact ((hl.ctrlDel _ _).sessionClose id).sessionSocket ((h.ctrlDel _ _).sessionClose id) id answer ready
  · unfold FdWorld.callHangup
    split
    · exact hl
    · exact hl.ctrlDel _ _

theorem Listening.step (hl : Listening s) (h : Clean s) (hsafe : RecordsSafe s op) :
    Listening (s.step op) := by
  cases op with
  | linkCreate id udp answer ready => exact hl.linkCreate h id udp answer ready
  | linkSend id whole =>
    obtain rfl : whole = true := hsafe
    exact Listening.ctrlDel (s := s.setLink id _) hl _ _
  | linkOutput id fails drained =>
    unfold FdWorld.step FdWorld.linkOutput
    dsimp only
    split
    · exact hl.linkDestroy id
    · split
      · exact Listening.ctrlDel (s := s.setLink id _) hl _ _
      · exact hl
  | linkDestroy id => exact hl.linkDestroy id
  | keepGet dst => exact hl.getTcpKeepConn dst
  | keepCreate id answer ready =>
    unfold FdWorld.step
    dsimp only
    split
    · exact hl.keepCreate h id answer ready
    · exact hl
  | keepFree id force_free timer =>
    unfold FdWorld.step
    dsimp only
    split
    · exact Listening.freeTcpKeepConn (s := { s with users := s.users.erase id }) hl (h.eraseUser id) id force_free timer
    · exact hl
  | keepTimeout id =>
    unfold FdWorld.step
    dsimp only
    split
    · exact Listening.closeIdleTcpKeep (s := { s with timers := s.timers.erase id }) hl id
    · exact hl
  | sessionCreate id answer ready =>
    unfold FdWorld.step FdWorld.sessionCreate
    dsimp only
    split
    · exact hl
    · exact hl.sessionSocket h id answer ready
  | sessionClose id => exact hl.sessionClose id
  | writeWait proxy id osfd =>
    have heq : s.step (.writeWait proxy id osfd) = s := writeWait_refused hsafe proxy
    rwa [heq]
  | writeWake proxy id =>
    have heq : s.step (.writeWake proxy id) = s := h.writeWake_eq proxy id
    rwa [heq]
  | hangup fd answer ready => exact hl.hangup h fd answer ready
  | wait id fd events => exact hl.wait h id fd events
  | wake id => exact hl.wake id
  | appOpen answer =>
    unfold FdWorld.step
    dsimp only
    split
    · exact hl
    · rename_i fd hfd
      exact hl.opened (h.records_of_closed (socket_some hfd)) .app
  | appClose fd =>
    unfold FdWorld.step
    dsimp only
    split
    · exact hl.close fd
    · exact hl

theorem clean_init (maxfd : ℕ) : Clean (FdWorld.init maxfd) := by
  constructor
  case idle => exact ⟨fun _ => rfl, nofun, nofun, nofun, nofun, nofun, List.nodup_nil⟩
  case session =>
    rintro id fd ⟨⟩ hpos
    exact absurd hpos (lt_irrefl 0)
  all_goals simp [FdWorld.init]

/-- In a run whose steps are safe every record that a socket finds or leaves is as it was at the start, every object that
asks for filters has them and gets its events, and no open descriptor loses a filter. -/
theorem records_right_of_safe (maxfd : ℕ) {ops : List FdStep}
    (h : AllSteps FdWorld.step RecordsSafe (FdWorld.init maxfd) ops) :
    AllSteps FdWorld.step RecordsRight (FdWorld.init maxfd) ops :=
  AllSteps.imp (I := fun s => Clean s ∧ Listening s) (fun _ _ hs hq => ⟨hs.1.step hq, hs.2.step hs.1 hq⟩)
    (fun _ _ hs hq => ⟨(hs.1.step hq).turns, hs.1.registers hq, hs.2.step hs.1 hq⟩)
    ⟨clean_init maxfd, fun _ howner => absurd rfl howner⟩ h

/-- A link and a session take turns with the descriptor 3, an idle connection closes, and a call waits. -/
def sharedNumberRun : List FdStep :=
  [.linkCreate 0 false (some 3) true, .linkSend 0 true, .linkDestroy 0, .sessionCreate 0 (some 3) true,
    .writeWait 7 0 none, .hangup 3 (some 4) true, .keepGet (1, 80), .keepCreate 0 (some 3) true,
    .wait 5 3 {.read}, .wake 5, .keepFree 0 false true, .keepTimeout 0, .appOpen (some 3), .wait 6 3 {.read, .write}]

theorem records_right_sharedNumber : AllSteps FdWorld.step RecordsRight (FdWorld.init 10) sharedNumberRun :=
  records_right_of_safe 10 (by decide)

/-- A link that could not send a whole request leaves a reference behind. -/
theorem not_records_right_partialSend :
    ¬ AllSteps FdWorld.step RecordsRight (FdWorld.init 10)
      [.linkCreate 0 false (some 3) true, .linkSend 0 false, .linkDestroy 0] := by
  rintro ⟨-, -, ⟨hturns, -⟩, -⟩
  exact absurd (hturns { rd_ref := 1 } (by decide)) (by decide)

end FStack.Analysis
