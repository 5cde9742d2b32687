import FStack.Analysis.CleanRecords
import FStack.Analysis.KeepOwners

/-!
# Keep-alive connections among the descriptors

Keep-alive connections are modelled with their timers (`TcpKeepMgr`), and among all that registers a descriptor
(`FdWorld`).  `SameConns` says that two states have the same connections, in the same places, and that every descriptor
notifies the same object.  A step of the connections is the same in both (`keepStep_same`), and so is every run in which
the connections keep their owners (`keepRuns_same`).
-/

set_option autoImplicit false

namespace FStack.Analysis

open FStack.Model FStack.Prelude

variable {s : TcpKeepMgr} {w : FdWorld} {id : ℕ}

/-! ## States that correspond -/

/-- What a descriptor notifies, where only the connections are told apart from everything else. -/
def keepObj : NtfyObj → KeepObj
  | .keep id => .conn id
  | .link id => .other (3 * id)
  | .session id => .other (3 * id + 1)
  | .call id => .other (3 * id + 2)

theorem keepObj_injective : Function.Injective keepObj := by
  intro a b h
  cases a <;> cases b <;> simp only [keepObj, KeepObj.conn.injEq, KeepObj.other.injEq, reduceCtorEq] at h <;>
    first | exact congrArg _ h | (congr 1; omega)

/-- The same connections in both states. -/
structure SameConns (s : TcpKeepMgr) (w : FdWorld) : Prop where
  maxfd : w.maxfd = s.maxfd
  conns : w.conns = s.conns
  total : w.total = s.total
  pool : w.pool = s.pool
  keep_hash : w.keep_hash = s.keep_hash
  notify : ∀ fd, s.notify fd = (w.records fd).kqobj.map keepObj
  timers : ∀ id, id ∈ w.timers ↔ s.timers.heap.index (.conn id) ≠ 0
  users : ∀ id, id ∈ w.users ↔ id ∈ s.users

theorem SameConns.init (max_item maxfd : ℕ) : SameConns (TcpKeepMgr.init max_item maxfd) (FdWorld.init maxfd) :=
  ⟨rfl, rfl, rfl, rfl, rfl, fun _ => rfl, by simp [FdWorld.init, TcpKeepMgr.init, HeapList.new],
    by simp [FdWorld.init, TcpKeepMgr.init]⟩

theorem SameConns.setConn (h : SameConns s w) (id : ℕ) (conn : TcpKeepConn) :
    SameConns (s.setConn id conn) (w.setConn id conn) := by
  refine ⟨h.maxfd, ?_, h.total, h.pool, h.keep_hash, h.notify, h.timers, h.users⟩
  exact congrArg (fun conns => Function.update conns id conn) h.conns

theorem SameConns.setLists (h : SameConns s w) (keep_hash : ℕ × ℕ → Option (List ℕ)) :
    SameConns { s with keep_hash := keep_hash } { w with keep_hash := keep_hash } :=
  ⟨h.maxfd, h.conns, h.total, h.pool, rfl, h.notify, h.timers, h.users⟩

/-- What is only in the table of the descriptors may change. -/
theorem SameConns.frame (h : SameConns s w) (filters : ℕ → KqEvents) (owner : ℕ → Option FdOwner)
    (turns : List FdRecord) : SameConns s { w with filters := filters, owner := owner, turns := turns } :=
  ⟨h.maxfd, h.conns, h.total, h.pool, h.keep_hash, h.notify, h.timers, h.users⟩

theorem SameConns.setNotify (h : SameConns s w) (fd : ℕ) (obj : Option NtfyObj) {r : FdRecord} (hobj : r.kqobj = obj)
    (filters : ℕ → KqEvents) :
    SameConns { s with notify := Function.update s.notify fd (obj.map keepObj) }
      { w with records := Function.update w.records fd r, filters := filters } := by
  refine ⟨h.maxfd, h.conns, h.total, h.pool, h.keep_hash, fun fd' => ?_, h.timers, h.users⟩
  dsimp only
  rw [Function.update_apply, Function.update_apply]
  split
  · rw [hobj]
  · exact h.notify fd'

/-! ## The kqueue and the timers -/

theorem SameConns.holds_iff (h : SameConns s w) (fd : ℕ) (obj : NtfyObj) :
    s.notify fd = some (keepObj obj) ↔ (w.records fd).kqobj = some obj := by
  rw [h.notify, Option.map_eq_some_iff]
  constructor
  · rintro ⟨obj', hobj', heq⟩
    rw [hobj', keepObj_injective heq]
  · exact fun hobj => ⟨obj, hobj, rfl⟩

theorem SameConns.free_iff (h : SameConns s w) (fd : ℕ) : s.notify fd = none ↔ (w.records fd).kqobj = none := by
  rw [h.notify, Option.map_eq_none_iff]

theorem SameConns.addObj (h : SameConns s w) (obj : NtfyObj) (fd : ℕ) (events : KqEvents) :
    (w.kqueueAddObj obj (some fd) events).2 = (s.kqueueAddObj (keepObj obj) fd true).2 ∧
      SameConns (s.kqueueAddObj (keepObj obj) fd true).1 (w.kqueueAddObj obj (some fd) events).1 := by
  unfold TcpKeepMgr.kqueueAddObj
  split
  · next hge =>
    rw [addObj_refused (Or.inl (h.maxfd.trans_le hge))]
    exact ⟨rfl, h⟩
  next hlt =>
  simp only [ne_eq, h.free_iff, h.holds_iff, if_true]
  split
  · next hother =>
    rw [addObj_refused (Or.inr hother)]
    exact ⟨rfl, h⟩
  next hmine =>
  have hlt' : fd < w.maxfd := by rw [h.maxfd]; exact Nat.not_le.mp hlt
  unfold FdWorld.kqueueAddObj
  rw [kqFdRefGet_lt hlt']
  dsimp only
  rw [if_neg hmine, ntfyReg_eq hlt', ctrlAdd_eq (by exact hlt')]
  unfold FdWorld.setRecord
  dsimp only
  rw [Function.update_self, Function.update_idem]
  exact ⟨rfl, h.setNotify fd (some obj) rfl _⟩

theorem SameConns.delObj (h : SameConns s w) (obj : NtfyObj) (fd : ℕ) (events : KqEvents) :
    (w.kqueueDelObj obj (some fd) events).2 = (s.kqueueDelObj (keepObj obj) fd true).2 ∧
      SameConns (s.kqueueDelObj (keepObj obj) fd true).1 (w.kqueueDelObj obj (some fd) events).1 := by
  unfold TcpKeepMgr.kqueueDelObj
  split
  · next hge =>
    unfold FdWorld.kqueueDelObj
    rw [kqFdRefGet_ge (h.maxfd.trans_le hge)]
    exact ⟨rfl, h⟩
  next hlt =>
  have hlt' : fd < w.maxfd := by rw [h.maxfd]; exact Nat.not_le.mp hlt
  unfold FdWorld.kqueueDelObj
  simp only [kqFdRefGet_lt hlt', ne_eq, h.holds_iff, if_true]
  split
  · exact ⟨rfl, h⟩
  rw [ntfyReg_eq hlt', ctrlDel_eq (by exact hlt')]
  unfold FdWorld.setRecord
  dsimp only
  rw [Function.update_self, Function.update_idem]
  exact ⟨rfl, h.setNotify fd none rfl _⟩

theorem SameConns.stopTimer (h : SameConns s w) (hindexed : Indexed s.timers.heap none) (id : ℕ) :
    SameConns { s with timers := s.timers.stopTimer (.conn id) } { w with timers := w.timers.erase id } := by
  refine ⟨h.maxfd, h.conns, h.total, h.pool, h.keep_hash, h.notify, fun id' => ?_, h.users⟩
  dsimp only
  rw [Finset.mem_erase, h.timers, Ne, Ne, Ne, (stopTimer_out hindexed (.conn id)).2, not_or, KeepObj.conn.injEq]

theorem SameConns.startTimer (h : SameConns s w) (hindexed : Indexed s.timers.heap none) (id interval now : ℕ) :
    SameConns { s with timers := (s.timers.startTimer (.conn id) interval now).1 }
      (if (s.timers.startTimer (.conn id) interval now).2 then { w with timers := insert id w.timers } else w) := by
  rcases startTimer_cases hindexed (.conn id) interval now with ⟨hok, -, -, hindex⟩ | ⟨hfail, hsame⟩
  · rw [if_pos hok]
    refine ⟨h.maxfd, h.conns, h.total, h.pool, h.keep_hash, h.notify, fun id' => ?_, h.users⟩
    dsimp only
    rw [Finset.mem_insert, h.timers, Ne, Ne, hindex, not_and_or, not_not, KeepObj.conn.injEq]
  · rw [hfail, if_neg Bool.false_ne_true]
    refine ⟨h.maxfd, h.conns, h.total, h.pool, h.keep_hash, h.notify, fun id' => ?_, h.users⟩
    rw [h.timers, hsame]

/-! ## One connection -/

theorem SameConns.idleAttach (h : SameConns s w) (hindexed : Indexed s.timers.heap none) (id now : ℕ) :
    let w' := w.idleAttach id (s.timers.startTimer (.conn id) TcpKeepMgr.KEEP_TIME now).2
    w'.2 = (s.idleAttach id now true).2 ∧ SameConns (s.idleAttach id now true).1 w'.1 := by
  have hstart := h.startTimer hindexed id TcpKeepMgr.KEEP_TIME now
  unfold TcpKeepMgr.idleAttach FdWorld.idleAttach
  rw [congrFun h.conns id]
  cases (s.conns id).osfd with
  | none => exact ⟨rfl, h⟩
  | some fd =>
    dsimp only
    by_cases hkqueue : (s.conns id).in_kqueue = true
    · rw [if_pos hkqueue, if_pos hkqueue]
      exact ⟨rfl, h⟩
    rw [if_neg hkqueue, if_neg hkqueue]
    generalize s.timers.startTimer (.conn id) TcpKeepMgr.KEEP_TIME now = r at hstart
    obtain ⟨timers, ok⟩ := r
    cases ok with
    | false => exact ⟨rfl, hstart⟩
    | true =>
      rw [if_pos rfl] at hstart
      obtain ⟨hok, hadded⟩ := hstart.addObj (.keep id) fd {.read}
      rw [if_pos rfl, if_pos rfl]
      dsimp only [keepObj] at hok hadded ⊢
      rw [hok]
      split
      · rw [hadded.conns]
        exact ⟨rfl, hadded.setConn id _⟩
      · exact ⟨rfl, hadded⟩

theorem SameConns.idleDetach (h : SameConns s w) (hindexed : Indexed s.timers.heap none) (id : ℕ) :
    (w.idleDetach id).2 = (s.idleDetach id true).2 ∧ SameConns (s.idleDetach id true).1 (w.idleDetach id).1 := by
  unfold TcpKeepMgr.idleDetach FdWorld.idleDetach
  rw [congrFun h.conns id]
  cases (s.conns id).osfd with
  | none => exact ⟨rfl, h⟩
  | some fd =>
    dsimp only
    by_cases hkqueue : (s.conns id).in_kqueue = true
    · rw [if_pos hkqueue, if_pos hkqueue]
      obtain ⟨hok, hdeleted⟩ := (h.stopTimer hindexed id).delObj (.keep id) fd {.read}
      dsimp only [keepObj] at hok hdeleted ⊢
      rw [hok]
      split
      · rw [hdeleted.conns]
        exact ⟨rfl, hdeleted.setConn id _⟩
      · exact ⟨rfl, hdeleted⟩
    · rw [if_neg hkqueue, if_neg hkqueue]
      exact ⟨rfl, h⟩

theorem SameConns.insertConn (h : SameConns s w) (key : ℕ × ℕ) (id : ℕ) :
    SameConns (s.insertConn key id) (w.insertConn key id) := by
  unfold TcpKeepMgr.insertConn FdWorld.insertConn
  rw [h.conns, h.keep_hash]
  split
  · exact h
  · exact (h.setConn id _).setLists _

/-- In a list without repetition both ways to take a connection out are the same. -/
theorem SameConns.removeConn (h : SameConns s w) (hlists : ∀ key, (keepList s key).Nodup) (id : ℕ) :
    SameConns (s.removeConn id) (w.removeConn id) := by
  have hlist : (fun key => (s.keep_hash key).map (·.filter (· ≠ id))) = fun key => (s.keep_hash key).map (·.erase id) := by
    funext key
    have hnodup := hlists key
    unfold keepList at hnodup
    cases hkey : s.keep_hash key with
    | none => rfl
    | some list =>
      rw [hkey, Option.getD_some] at hnodup
      refine congrArg some ((List.filter_congr fun id' _ => ?_).trans (hnodup.erase_eq_filter id).symm)
      rw [bne, decide_not, beq_eq_decide]
  unfold TcpKeepMgr.removeConn FdWorld.removeConn
  rw [h.conns, h.keep_hash, hlist]
  split
  · exact (h.setConn id _).setLists _
  · exact h

theorem SameConns.reset (h : SameConns s w) (id : ℕ) : SameConns (s.reset id) (w.keepReset id) := by
  have hset := h.setConn id { s.conns id with dst_addr := (0, 0), osfd := none }
  unfold TcpKeepMgr.reset FdWorld.keepReset
  rw [h.conns]
  split
  · exact hset
  · exact hset.frame _ _ _

theorem SameConns.release (h : SameConns s w) (id : ℕ) : SameConns ((s.reset id).freePtr id) (w.keepRelease id) := by
  have hreset := h.reset id
  unfold TcpKeepMgr.freePtr FdWorld.keepRelease
  dsimp only
  rw [hreset.pool]
  split
  · exact ⟨hreset.maxfd, hreset.conns, hreset.total, hreset.pool, hreset.keep_hash, hreset.notify, hreset.timers,
      hreset.users⟩
  · exact ⟨hreset.maxfd, hreset.conns, hreset.total, rfl, hreset.keep_hash, hreset.notify, hreset.timers, hreset.users⟩

/-! ## Lists and pool -/

theorem keepList_idleDetach (s : TcpKeepMgr) (id : ℕ) (ctl : Bool) (key : ℕ × ℕ) :
    keepList (s.idleDetach id ctl).1 key = keepList s key := by
  unfold TcpKeepMgr.idleDetach TcpKeepMgr.kqueueDelObj TcpKeepMgr.setConn
  grind [keepList]

theorem removeConn_timers (s : TcpKeepMgr) (id : ℕ) : (s.removeConn id).timers = s.timers := by
  unfold TcpKeepMgr.removeConn
  split <;> rfl

theorem SameConns.close (h : SameConns s w) (hindexed : Indexed s.timers.heap none)
    (hlists : ∀ key, (keepList s key).Nodup) (id : ℕ) : SameConns (s.closeIdleTcpKeep id true) (w.closeIdleTcpKeep id) := by
  suffices hremoved : SameConns (s.removeTcpKeepConn id true) (w.removeTcpKeepConn id) from hremoved.release id
  unfold TcpKeepMgr.removeTcpKeepConn FdWorld.removeTcpKeepConn
  rw [congrFun h.conns id]
  dsimp only
  rw [congrFun h.keep_hash]
  split
  · exact h
  cases s.keep_hash (s.conns id).dst_addr with
  | none => exact h
  | some list =>
    refine (h.idleDetach hindexed id).2.removeConn (fun key => ?_) id
    rw [keepList_idleDetach]
    exact hlists key

theorem findCreateList_timers (s : TcpKeepMgr) (dst : ℕ × ℕ) : (s.findCreateList dst).timers = s.timers := by
  unfold TcpKeepMgr.findCreateList
  split <;> rfl

theorem SameConns.findCreate (h : SameConns s w) (dst : ℕ × ℕ) :
    SameConns (s.findCreateList dst)
      { w with keep_hash := Function.update w.keep_hash dst (some ((w.keep_hash dst).getD [])) } := by
  rw [h.keep_hash]
  unfold TcpKeepMgr.findCreateList
  split
  · next hnone =>
    rw [hnone]
    exact h.setLists _
  · next list hlist =>
    rw [hlist, Option.getD_some, ← hlist, Function.update_eq_self]
    exact h.setLists _

theorem SameConns.cache (h : SameConns s w) (hindexed : Indexed s.timers.heap none) (id now : ℕ) :
    let w' := w.cacheTcpKeepConn id (s.timers.startTimer (.conn id) TcpKeepMgr.KEEP_TIME now).2
    w'.2 = (s.cacheTcpKeepConn id now true).2 ∧ SameConns (s.cacheTcpKeepConn id now true).1 w'.1 := by
  unfold TcpKeepMgr.cacheTcpKeepConn FdWorld.cacheTcpKeepConn
  rw [congrFun h.conns id]
  dsimp only
  split
  · exact ⟨rfl, h⟩
  have htimers := findCreateList_timers s (s.conns id).dst_addr
  obtain ⟨hok, hattached⟩ := (h.findCreate (s.conns id).dst_addr).idleAttach (by rw [htimers]; exact hindexed) id now
  rw [htimers] at hok hattached
  rw [hok]
  split
  · exact ⟨rfl, hattached.insertConn _ id⟩
  · exact ⟨rfl, hattached⟩

theorem SameConns.free (h : SameConns s w) (hindexed : Indexed s.timers.heap none) (id : ℕ) (force_free : Bool)
    (now : ℕ) :
    SameConns (s.freeTcpKeepConn id force_free now true)
      (w.freeTcpKeepConn id force_free (s.timers.startTimer (.conn id) TcpKeepMgr.KEEP_TIME now).2) := by
  obtain ⟨hok, hcached⟩ := h.cache hindexed id now
  unfold TcpKeepMgr.freeTcpKeepConn FdWorld.freeTcpKeepConn
  split
  · exact h.release id
  dsimp only
  rw [hok]
  split
  · exact hcached
  · exact hcached.release id

/-- The connection that is handed out has one more user. -/
theorem SameConns.hand (h : SameConns s w) (id : ℕ) :
    SameConns { s with users := id :: s.users } { w with users := insert id w.users } := by
  refine ⟨h.maxfd, h.conns, h.total, h.pool, h.keep_hash, h.notify, h.timers, fun id' => ?_⟩
  rw [Finset.mem_insert, List.mem_cons, h.users]

/-- A connection from the pool, or a new one. -/
theorem SameConns.alloc (h : SameConns s w) (id : ℕ) (dst : ℕ × ℕ) {pool pool' : List ℕ} (hpool : pool' = pool)
    {total total' : ℕ} (htotal : total' = total) :
    SameConns
      { s.setConn id { s.conns id with dst_addr := dst } with pool := pool, total := total, users := id :: s.users }
      { w.setConn id { w.conns id with dst_addr := dst } with
        pool := pool', total := total', users := insert id w.users } := by
  rw [congrFun h.conns id]
  have hset := (h.setConn id { s.conns id with dst_addr := dst }).hand id
  exact ⟨hset.maxfd, hset.conns, htotal, hpool, hset.keep_hash, hset.notify, hset.timers, hset.users⟩

theorem SameConns.get (h : SameConns s w) (hindexed : Indexed s.timers.heap none)
    (hlists : ∀ key, (keepList s key).Nodup) (dst : ℕ × ℕ) :
    SameConns (s.step (.get dst true)).1 (w.getTcpKeepConn dst) := by
  unfold TcpKeepMgr.step TcpKeepMgr.getTcpKeepConn FdWorld.getTcpKeepConn TcpKeepMgr.allocPtr
  dsimp only
  rw [congrFun h.keep_hash dst]
  have hremoved := h.removeConn hlists
  have hindexed' : ∀ id, Indexed (s.removeConn id).timers.heap none := by
    intro id
    rw [removeConn_timers]
    exact hindexed
  have hpool := h.pool
  rcases s.keep_hash dst with _ | _ | ⟨id, rest⟩
  case some.cons => exact ((hremoved id).idleDetach (hindexed' id) id).2.hand id
  all_goals
    cases hfree : s.pool with
    | nil =>
      rw [hfree] at hpool
      rw [hpool, h.total]
      exact h.alloc s.total dst hpool rfl
    | cons id pool =>
      rw [hfree] at hpool
      rw [hpool]
      exact h.alloc id dst rfl h.total

theorem SameConns.create (h : SameConns s w) (id : ℕ) (answer : Option ℕ) (ready : Bool) :
    SameConns (s.createSocket id ((w.socket answer).filter fun _ => ready)) (w.keepCreate id answer ready) := by
  unfold TcpKeepMgr.createSocket FdWorld.keepCreate
  rw [← congrFun h.conns id]
  split
  · exact h
  cases w.socket answer with
  | none => exact h.setConn id { w.conns id with osfd := none }
  | some fd =>
    cases ready with
    | false => exact (h.setConn id { w.conns id with osfd := none }).frame _ _ _
    | true => exact (h.setConn id { w.conns id with osfd := some fd }).frame w.filters _ _

/-! ## Steps and runs -/

/-- A step of the connections in both models.  The timer of a connection expires when it is on top of the heap. -/
inductive SameStep (s : TcpKeepMgr) (w : FdWorld) : KeepStep → FdStep → Prop
  | get (dst : ℕ × ℕ) : SameStep s w (.get dst true) (.keepGet dst)
  | create (id : ℕ) (answer : Option ℕ) (ready : Bool) :
      SameStep s w (.create id ((w.socket answer).filter fun _ => ready)) (.keepCreate id answer ready)
  | free (id : ℕ) (force_free : Bool) (now : ℕ) :
      SameStep s w (.free id force_free now true)
        (.keepFree id force_free (s.timers.startTimer (.conn id) TcpKeepMgr.KEEP_TIME now).2)
  | expire (id now : ℕ) (top : s.timers.heap.heapTop = some (.conn id)) (due : s.timers.expired (.conn id) ≤ now) :
      SameStep s w (.expire now true) (.keepTimeout id)
  | event (fd id : ℕ) (answer : Option ℕ) (ready : Bool) (obj : (w.records fd).kqobj = some (.keep id)) :
      SameStep s w (.event fd true) (.hangup fd answer ready)

/-- **One step.** -/
theorem keepStep_same {a : KeepStep} {b : FdStep} (h : SameConns s w) (hkept : Kept s) (hstep : SameStep s w a b) :
    SameConns (s.step a).1 (w.step b) := by
  cases hstep with
  | get dst => exact h.get hkept.indexed hkept.lists_nodup dst
  | create id answer ready =>
    unfold TcpKeepMgr.step FdWorld.step
    simp only [h.users]
    split
    · exact h.create id answer ready
    · exact h
  | free id force_free now =>
    unfold TcpKeepMgr.step FdWorld.step
    simp only [h.users]
    split
    · have herased : SameConns { s with users := s.users.erase id } { w with users := w.users.erase id } := by
        refine ⟨h.maxfd, h.conns, h.total, h.pool, h.keep_hash, h.notify, h.timers, fun id' => ?_⟩
        rw [Finset.mem_erase, hkept.users_nodup.mem_erase_iff, h.users]
      exact herased.free hkept.indexed id force_free now
    · exact h
  | expire id now top due =>
    obtain ⟨-, -, hfirst⟩ := hkept.indexed.heapTop_eq top
    have hmem : id ∈ w.timers := (h.timers id).mpr (by rw [hfirst]; exact one_ne_zero)
    unfold TcpKeepMgr.step TcpKeepMgr.checkExpired FdWorld.step
    dsimp only
    rw [top, if_pos hmem]
    dsimp only
    rw [if_pos due]
    exact (h.stopTimer hkept.indexed id).close (stopTimer_out hkept.indexed (.conn id)).1 hkept.lists_nodup id
  | event fd id answer ready obj =>
    unfold TcpKeepMgr.step FdWorld.step FdWorld.hangup
    dsimp only
    rw [obj, show s.notify fd = some (.conn id) from (h.holds_iff fd (.keep id)).mpr obj]
    exact h.close hkept.indexed hkept.lists_nodup id

/-- Both models take a step. -/
def bothStep (st : TcpKeepMgr × FdWorld) (op : KeepStep × FdStep) : TcpKeepMgr × FdWorld :=
  ((st.1.step op.1).1, st.2.step op.2)

/-- **Whole runs**, as long as the connections keep their owners. -/
theorem keepRuns_same {max_item maxfd : ℕ} {ops : List (KeepStep × FdStep)}
    (hops : AllSteps bothStep (fun st op => SameStep st.1 st.2 op.1 op.2 ∧ KeepSafe st.1 op.1)
      (TcpKeepMgr.init max_item maxfd, FdWorld.init maxfd) ops) :
    AllSteps bothStep (fun st op => SameConns (bothStep st op).1 (bothStep st op).2)
      (TcpKeepMgr.init max_item maxfd, FdWorld.init maxfd) ops :=
  AllSteps.imp (I := fun st => Kept st.1 ∧ SameConns st.1 st.2)
    (fun _ op hst hop => ⟨step_kept hst.1 op.1 hop.2, keepStep_same hst.2 hst.1 hop.1⟩)
    (fun st op hst hop =>
      (keepStep_same hst.2 hst.1 hop.1 : SameConns (bothStep st op).1 (bothStep st op).2))
    ⟨init_kept max_item maxfd, SameConns.init max_item maxfd⟩ hops

end FStack.Analysis
