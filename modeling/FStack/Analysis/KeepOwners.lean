import FStack.Analysis.HeapOrder
import FStack.Model.KeepConn

/-!
# Who has a keep-alive connection

A connection is with a caller, idle in the list of its destination, in the pool, or gone.  `At` says what each of
these means for the list, the timer, the kqueue and the flags; a step moves one connection from one place to
another and leaves the others where they are.

When the kqueue refuses a connection whose timer has been started, or does not give it up, the connection goes on
with a registration that its new place does not allow.
-/

set_option autoImplicit false

namespace FStack.Analysis

open FStack.Model FStack.Prelude

variable {s s' : TcpKeepMgr} {id : ℕ}
variable {m timers : CTimerMng KeepObj} {fd : ℕ} {ctl : Bool}
variable {pool : List ℕ} {keep_hash : ℕ × ℕ → Option (List ℕ)} {now : ℕ}

/-! ## What is expected -/

/-- The list of a destination. -/
def keepList (s : TcpKeepMgr) (key : ℕ × ℕ) : List ℕ := (s.keep_hash key).getD []

/-- One caller has the connection, which is in no list and not in the pool. -/
structure KeepUsed (s : TcpKeepMgr) (id : ℕ) : Prop where
  users : s.users.count id = 1
  lists : ∀ key, id ∉ keepList s key
  pool : id ∉ s.pool

/-- The connection is in the list of its own destination, and only there, with a timer and in the kqueue. -/
structure IdleKept (s : TcpKeepMgr) (id : ℕ) : Prop where
  users : id ∉ s.users
  list : (keepList s (s.conns id).dst_addr).count id = 1
  lists : ∀ key, key ≠ (s.conns id).dst_addr → id ∉ keepList s key
  pool : id ∉ s.pool
  timer : s.timers.heap.index (.conn id) ≠ 0
  kqueue : ∃ fd, (s.conns id).osfd = some fd ∧ s.notify fd = some (.conn id)

/-- The connection is in the pool, with no timer, no descriptor in the kqueue and in no list. -/
structure KeepPooled (s : TcpKeepMgr) (id : ℕ) : Prop where
  users : id ∉ s.users
  lists : ∀ key, id ∉ keepList s key
  pool : s.pool.count id = 1
  timer : s.timers.heap.index (.conn id) = 0
  kqueue : ∀ fd, s.notify fd ≠ some (.conn id)

/-- After a step every connection has one owner; and a connection that is handed out has the destination that was
asked for. -/
structure KeepRight (s : TcpKeepMgr) (op : KeepStep) : Prop where
  owned : ∀ id < (s.step op).1.total, id ∉ (s.step op).1.dead →
    KeepUsed (s.step op).1 id ∨ IdleKept (s.step op).1 id ∨ KeepPooled (s.step op).1 id
  dst : ∀ dst ctl, op = .get dst ctl →
    ∃ id, (s.step op).2 = some id ∧ ((s.step op).1.conns id).dst_addr = dst

/-- Whether a connection is to be notified. -/
def isConn : KeepObj → Bool
  | .conn _ => true
  | .other _ => false

/-- The condition on the state before a step: the kqueue gives up a connection that leaves its list, and takes one
for which a timer can be started. -/
def KeepSafe (s : TcpKeepMgr) : KeepStep → Prop
  | .get dst ctl => keepList s dst ≠ [] → ctl = true
  | .free id force_free _ ctl =>
    id ∈ s.users → force_free = false → (s.conns id).dst_addr.1 ≠ 0 → (s.conns id).dst_addr.2 ≠ 0 →
      s.timers.heap.count < s.timers.heap.max →
        ∀ fd ∈ (s.conns id).osfd, fd < s.maxfd ∧ s.notify fd = none ∧ ctl = true
  | .expire now ctl =>
    ∀ timer ∈ s.timers.heap.heapTop, isConn timer = true → s.timers.expired timer ≤ now → ctl = true
  | .event fd ctl => ∀ obj ∈ s.notify fd, isConn obj = true → ctl = true
  | _ => True

instance (s : TcpKeepMgr) : DecidablePred (KeepSafe s)
  | .get dst ctl => inferInstanceAs (Decidable (keepList s dst ≠ [] → ctl = true))
  | .free id force_free _ ctl => inferInstanceAs (Decidable
      (id ∈ s.users → force_free = false → (s.conns id).dst_addr.1 ≠ 0 → (s.conns id).dst_addr.2 ≠ 0 →
        s.timers.heap.count < s.timers.heap.max →
          ∀ fd ∈ (s.conns id).osfd, fd < s.maxfd ∧ s.notify fd = none ∧ ctl = true))
  | .expire now ctl => inferInstanceAs (Decidable
      (∀ timer ∈ s.timers.heap.heapTop, isConn timer = true → s.timers.expired timer ≤ now → ctl = true))
  | .event fd ctl => inferInstanceAs (Decidable (∀ obj ∈ s.notify fd, isConn obj = true → ctl = true))
  | .create _ _ | .startOther _ _ _ | .stopOther _ | .addOther _ _ _ | .delOther _ _ _ =>
    inferInstanceAs (Decidable True)

/-! ## Places -/

/-- Where a connection is; `gone` is one that was deleted, or not made yet. -/
inductive KeepPlace where
  | user
  | idle
  | pool
  | gone
deriving DecidableEq

variable {place : KeepPlace}

/-- A connection is in a place, and only there. -/
structure At (s : TcpKeepMgr) (id : ℕ) (place : KeepPlace) : Prop where
  users : id ∈ s.users ↔ place = .user
  pool : id ∈ s.pool ↔ place = .pool
  alive : id < s.total ∧ id ∉ s.dead ↔ place ≠ .gone
  in_list : (s.conns id).in_list = true ↔ place = .idle
  in_kqueue : (s.conns id).in_kqueue = true ↔ place = .idle
  listed : ∀ key, id ∈ keepList s key ↔ place = .idle ∧ (s.conns id).dst_addr = key
  timer : s.timers.heap.index (.conn id) = 0 ↔ place ≠ .idle
  notified : ∀ fd, s.notify fd = some (.conn id) ↔ place = .idle ∧ (s.conns id).osfd = some fd
  opened : place = .idle →
    (s.conns id).osfd ≠ none ∧ (s.conns id).dst_addr.1 ≠ 0 ∧ (s.conns id).dst_addr.2 ≠ 0

/-- What holds between steps: every connection has its place. -/
structure Kept (s : TcpKeepMgr) : Prop where
  indexed : Indexed s.timers.heap none
  users_nodup : s.users.Nodup
  pool_nodup : s.pool.Nodup
  lists_nodup : ∀ key, (keepList s key).Nodup
  notify_lt : ∀ fd obj, s.notify fd = some obj → fd < s.maxfd
  dead_lt : ∀ id ∈ s.dead, id < s.total
  places : ∀ id, ∃ place, At s id place

/-- A step that does not touch a connection leaves it in its place. -/
theorem At.frame (hat : At s id place) (hconn : s'.conns id = s.conns id) (husers : id ∈ s'.users ↔ id ∈ s.users)
    (hpool : id ∈ s'.pool ↔ id ∈ s.pool) (halive : id < s'.total ∧ id ∉ s'.dead ↔ id < s.total ∧ id ∉ s.dead)
    (hlisted : ∀ key, id ∈ keepList s' key ↔ id ∈ keepList s key)
    (htimer : s'.timers.heap.index (.conn id) = 0 ↔ s.timers.heap.index (.conn id) = 0)
    (hnotify : ∀ fd, s'.notify fd = some (.conn id) ↔ s.notify fd = some (.conn id)) : At s' id place where
  users := husers.trans hat.users
  pool := hpool.trans hat.pool
  alive := halive.trans hat.alive
  in_list := by rw [hconn]; exact hat.in_list
  in_kqueue := by rw [hconn]; exact hat.in_kqueue
  listed key := by rw [hconn]; exact (hlisted key).trans (hat.listed key)
  timer := htimer.trans hat.timer
  notified fd := by rw [hconn]; exact (hnotify fd).trans (hat.notified fd)
  opened := by rw [hconn]; exact hat.opened

theorem init_kept (max_item maxfd : ℕ) : Kept (TcpKeepMgr.init max_item maxfd) where
  indexed := (IsHeap.empty max_item fun _ => 0).indexed
  users_nodup := List.nodup_nil
  pool_nodup := List.nodup_nil
  lists_nodup _ := List.nodup_nil
  notify_lt _ _ hobj := nomatch hobj
  dead_lt _ hdead := nomatch hdead
  places id := by
    refine ⟨.gone, ?_, ?_, ?_, ?_, ?_, ?_, ?_, ?_, ?_⟩
    all_goals simp [TcpKeepMgr.init, keepList, HeapList.new]

theorem Kept.at_user (hkept : Kept s) (huser : id ∈ s.users) : At s id .user := by
  obtain ⟨place, hat⟩ := hkept.places id
  rwa [← hat.users.mp huser]

/-- In a state that is kept, every connection has one owner. -/
theorem Kept.owned (hkept : Kept s) {id : ℕ} (hid : id < s.total) (halive : id ∉ s.dead) :
    KeepUsed s id ∨ IdleKept s id ∨ KeepPooled s id := by
  obtain ⟨place, hat⟩ := hkept.places id
  have hlive := hat.alive.mp ⟨hid, halive⟩
  cases place with
  | gone => exact absurd rfl hlive
  | user =>
    refine Or.inl ⟨?_, ?_, ?_⟩
    · exact List.count_eq_one_of_mem hkept.users_nodup (hat.users.mpr rfl)
    · exact fun key hmem => nomatch ((hat.listed key).mp hmem).1
    · exact fun hmem => nomatch hat.pool.mp hmem
  | idle =>
    refine Or.inr (Or.inl ⟨?_, ?_, ?_, ?_, ?_, ?_⟩)
    · exact fun hmem => nomatch hat.users.mp hmem
    · exact List.count_eq_one_of_mem (hkept.lists_nodup _) ((hat.listed _).mpr ⟨rfl, rfl⟩)
    · exact fun key hkey hmem => hkey ((hat.listed key).mp hmem).2.symm
    · exact fun hmem => nomatch hat.pool.mp hmem
    · exact fun hzero => hat.timer.mp hzero rfl
    · obtain ⟨fd, hfd⟩ := Option.ne_none_iff_exists'.mp (hat.opened rfl).1
      exact ⟨fd, hfd, (hat.notified fd).mpr ⟨rfl, hfd⟩⟩
  | pool =>
    refine Or.inr (Or.inr ⟨?_, ?_, ?_, ?_, ?_⟩)
    · exact fun hmem => nomatch hat.users.mp hmem
    · exact fun key hmem => nomatch ((hat.listed key).mp hmem).1
    · exact List.count_eq_one_of_mem hkept.pool_nodup (hat.pool.mpr rfl)
    · exact hat.timer.mpr (by decide)
    · exact fun fd hfd => nomatch ((hat.notified fd).mp hfd).1

/-! ## Timers -/

/-- `stop_timer` takes out one timer. -/
theorem stopTimer_out (hi : Indexed m.heap none) (obj : KeepObj) :
    Indexed (m.stopTimer obj).heap none ∧
      ∀ e, (m.stopTimer obj).heap.index e = 0 ↔ e = obj ∨ m.heap.index e = 0 := by
  unfold CTimerMng.stopTimer
  dsimp only
  by_cases hidx : m.heap.index obj = 0
  · rw [(heapDelete_of_out m.expired m.heap hidx).1]
    refine ⟨hi, fun e => ⟨Or.inr, ?_⟩⟩
    rintro (rfl | hzero)
    · exact hidx
    · exact hzero
  · have hout := (heapDelete_takenOut m.expired hi hidx).2
    exact ⟨hout.indexed, hout.index_eq_zero⟩

/-- A timer that was stopped is stopped once more. -/
theorem stopTimer_twice (hi : Indexed m.heap none) (obj : KeepObj) :
    (m.stopTimer obj).stopTimer obj = m.stopTimer obj := by
  have hzero := ((stopTimer_out hi obj).2 obj).mpr (Or.inl rfl)
  have hsame := (heapDelete_of_out m.expired (m.stopTimer obj).heap hzero).1
  unfold CTimerMng.stopTimer at hsame ⊢
  dsimp only at hsame ⊢
  rw [hsame]

/-- `start_timer` puts in a timer, or fails and leaves the heap. -/
theorem startTimer_cases (hi : Indexed m.heap none) (obj : KeepObj) (interval now : ℕ) :
    ((m.startTimer obj interval now).2 = true ∧ m.heap.count < m.heap.max ∧
        Indexed (m.startTimer obj interval now).1.heap none ∧
        ∀ e, (m.startTimer obj interval now).1.heap.index e = 0 ↔ e ≠ obj ∧ m.heap.index e = 0) ∨
      ((m.startTimer obj interval now).2 = false ∧ (m.startTimer obj interval now).1.heap = m.heap) := by
  unfold CTimerMng.startTimer
  dsimp only
  rcases heapPush_cases (Function.update m.expired obj ((now + interval) % 2 ^ 64)) m.heap obj with
    ⟨hroom, hidx⟩ | ⟨hsame, hfail⟩
  · obtain ⟨hok, hput⟩ := heapPush_putIn (Function.update m.expired obj ((now + interval) % 2 ^ 64)) hi hroom hidx
    refine Or.inl ⟨?_, hroom, hput.indexed, hput.index_eq_zero⟩
    rw [hok]
    rfl
  · refine Or.inr ⟨?_, hsame⟩
    unfold HeapList.heapPush at hfail ⊢
    split at hfail
    · next hfull => rw [if_pos hfull]; rfl
    next hroom =>
    split at hfail
    · next hidx => rw [if_neg hroom, if_pos hidx]; rfl
    · exact absurd rfl hfail

/-! ## Out of a list -/

/-- The connection is taken from its list, its timer and the kqueue. -/
def detached (s : TcpKeepMgr) (id fd : ℕ) : TcpKeepMgr :=
  { s with
    conns := Function.update s.conns id { s.conns id with in_kqueue := false, in_list := false }
    keep_hash := fun key => (s.keep_hash key).map (·.erase id)
    timers := s.timers.stopTimer (.conn id)
    notify := Function.update s.notify fd none }

/-- A connection that is idle on a descriptor: what `IdleDetach` and `RemoveConn` test. -/
structure IdleOn (s : TcpKeepMgr) (id fd : ℕ) : Prop where
  osfd : (s.conns id).osfd = some fd
  in_kqueue : (s.conns id).in_kqueue = true
  in_list : (s.conns id).in_list = true
  notify : s.notify fd = some (.conn id)
  lt : fd < s.maxfd

theorem Kept.idleOn (hkept : Kept s) (hat : At s id .idle) : ∃ fd, IdleOn s id fd := by
  obtain ⟨fd, hfd⟩ := Option.ne_none_iff_exists'.mp (hat.opened rfl).1
  have hnotify := (hat.notified fd).mpr ⟨rfl, hfd⟩
  exact ⟨fd, hfd, hat.in_kqueue.mpr rfl, hat.in_list.mpr rfl, hnotify, hkept.notify_lt fd _ hnotify⟩

theorem kqueueDelObj_eq {obj : KeepObj} (hnotify : s.notify fd = some obj) (hlt : fd < s.maxfd) :
    s.kqueueDelObj obj fd true = ({ s with notify := Function.update s.notify fd none }, true) := by
  unfold TcpKeepMgr.kqueueDelObj
  rw [if_neg (Nat.not_le.mpr hlt), if_neg (not_not.mpr hnotify), if_pos rfl]

/-- `IdleDetach` of a connection with a registration that the kqueue gives up. -/
theorem idleDetach_eq (hosfd : (s.conns id).osfd = some fd) (hkqueue : (s.conns id).in_kqueue = true)
    (hnotify : s.notify fd = some (.conn id)) (hlt : fd < s.maxfd) :
    s.idleDetach id true =
      ({ s with
          conns := Function.update s.conns id { s.conns id with in_kqueue := false }
          timers := s.timers.stopTimer (.conn id)
          notify := Function.update s.notify fd none }, true) := by
  have hdel := kqueueDelObj_eq (s := { s with timers := s.timers.stopTimer (.conn id) }) hnotify hlt
  unfold TcpKeepMgr.idleDetach
  split
  · next hnone => cases hnone.symm.trans hosfd
  · next fd' hsome =>
    obtain rfl := Option.some.inj (hsome.symm.trans hosfd)
    rw [if_pos hkqueue]
    dsimp only
    rw [hdel, if_pos rfl]
    rfl

theorem removeConn_eq (hlist : (s.conns id).in_list = true) :
    s.removeConn id = { s with
      conns := Function.update s.conns id { s.conns id with in_list := false }
      keep_hash := fun key => (s.keep_hash key).map (·.erase id) } := by
  unfold TcpKeepMgr.removeConn
  rw [if_pos hlist]
  rfl

/-- The order of `GetTcpKeepConn`. -/
theorem removeConn_idleDetach (hon : IdleOn s id fd) :
    ((s.removeConn id).idleDetach id true).1 = detached s id fd := by
  have hself : (s.removeConn id).conns id = { s.conns id with in_list := false } := by
    rw [removeConn_eq hon.in_list]
    exact Function.update_self _ _ _
  have hnotify : (s.removeConn id).notify = s.notify := by rw [removeConn_eq hon.in_list]
  have hmaxfd : (s.removeConn id).maxfd = s.maxfd := by rw [removeConn_eq hon.in_list]
  have hidle : (s.removeConn id).idleDetach id true = _ :=
    idleDetach_eq (by rw [hself]; exact hon.osfd) (by rw [hself]; exact hon.in_kqueue)
      (by rw [hnotify]; exact hon.notify) (by rw [hmaxfd]; exact hon.lt)
  rw [hidle, removeConn_eq hon.in_list]
  unfold detached
  simp only [Function.update_self, Function.update_idem]

/-- The order of `RemoveTcpKeepConn`. -/
theorem idleDetach_removeConn (hon : IdleOn s id fd) :
    (s.idleDetach id true).1.removeConn id = detached s id fd := by
  rw [idleDetach_eq hon.osfd hon.in_kqueue hon.notify hon.lt, removeConn_eq]
  · unfold detached
    simp only [Function.update_self, Function.update_idem]
  · dsimp only
    rw [Function.update_self]
    exact hon.in_list

theorem keepList_detached (s : TcpKeepMgr) (id fd : ℕ) (key : ℕ × ℕ) :
    keepList (detached s id fd) key = (keepList s key).erase id := by
  unfold keepList detached
  dsimp only
  cases s.keep_hash key with
  | none => rfl
  | some list => rfl

/-- A connection that leaves its list for a caller. -/
theorem detached_kept (hkept : Kept s) (hat : At s id .idle) (hon : IdleOn s id fd) :
    Kept { detached s id fd with users := id :: s.users } := by
  obtain ⟨hindexed, hzero⟩ := stopTimer_out hkept.indexed (.conn id)
  have hlists : ∀ key, keepList { detached s id fd with users := id :: s.users } key = (keepList s key).erase id :=
    keepList_detached s id fd
  have hnotify : ∀ fd', ({ detached s id fd with users := id :: s.users } : TcpKeepMgr).notify fd' =
      if fd' = fd then none else s.notify fd' := Function.update_apply s.notify fd none
  constructor
  case indexed => exact hindexed
  case users_nodup => exact List.nodup_cons.mpr ⟨fun hmem => (nomatch hat.users.mp hmem), hkept.users_nodup⟩
  case pool_nodup => exact hkept.pool_nodup
  case lists_nodup =>
    intro key
    rw [hlists]
    exact (hkept.lists_nodup key).erase id
  case notify_lt =>
    intro fd' obj hobj
    rw [hnotify] at hobj
    split at hobj
    · cases hobj
    · exact hkept.notify_lt fd' obj hobj
  case dead_lt => exact hkept.dead_lt
  case places =>
    intro id'
    by_cases hid : id' = id
    · subst hid
      have hconn : ({ detached s id' fd with users := id' :: s.users } : TcpKeepMgr).conns id' =
          { s.conns id' with in_kqueue := false, in_list := false } := Function.update_self _ _ _
      refine ⟨.user, ?_, ?_, ?_, ?_, ?_, ?_, ?_, ?_, ?_⟩
      · exact ⟨fun _ => rfl, fun _ => List.mem_cons_self⟩
      · exact ⟨fun hmem => (nomatch hat.pool.mp hmem), nofun⟩
      · exact ⟨fun _ => nofun, fun _ => hat.alive.mpr nofun⟩
      · rw [hconn]
        exact ⟨nofun, nofun⟩
      · rw [hconn]
        exact ⟨nofun, nofun⟩
      · intro key
        rw [hlists]
        exact ⟨fun hmem => absurd hmem ((hkept.lists_nodup key).not_mem_erase), fun h => (nomatch h.1)⟩
      · exact ⟨fun _ => nofun, fun _ => (hzero _).mpr (Or.inl rfl)⟩
      · intro fd'
        refine ⟨fun hfd' => ?_, fun h => (nomatch h.1)⟩
        exfalso
        rw [hnotify] at hfd'
        split at hfd'
        · cases hfd'
        · next hfd =>
          have hosfd := ((hat.notified fd').mp hfd').2
          exact hfd (Option.some.inj (hosfd.symm.trans hon.osfd))
      · exact nofun
    · obtain ⟨place, hplace⟩ := hkept.places id'
      refine ⟨place, hplace.frame ?_ ?_ ?_ ?_ ?_ ?_ ?_⟩
      · exact Function.update_of_ne hid _ _
      · exact List.mem_cons.trans (or_iff_right hid)
      · exact Iff.rfl
      · exact Iff.rfl
      · intro key
        rw [hlists]
        exact List.mem_erase_of_ne hid
      · exact (hzero _).trans (or_iff_right fun heq => hid (KeepObj.conn.inj heq))
      · intro fd'
        rw [hnotify]
        split
        · next hfd =>
          rw [hfd, hon.notify]
          exact ⟨nofun, fun h => absurd (KeepObj.conn.inj (Option.some.inj h)).symm hid⟩
        · rfl

/-! ## To the pool and from it -/

/-- A connection goes from its caller to the pool, or is deleted. -/
theorem left_kept (hkept : Kept s) (huser : id ∈ s.users) {dead : List ℕ} (hplace : place = .pool ∨ place = .gone)
    (hnodup : pool.Nodup) (hpool : ∀ id', id' ∈ pool ↔ id' ∈ s.pool ∨ id' = id ∧ place = .pool)
    (hdead : ∀ id', id' ∈ dead ↔ id' ∈ s.dead ∨ id' = id ∧ place = .gone) :
    Kept { s with
      conns := Function.update s.conns id { s.conns id with dst_addr := (0, 0), osfd := none }
      users := s.users.erase id, pool := pool, dead := dead } := by
  have hat := hkept.at_user huser
  obtain ⟨hlt, halive⟩ := hat.alive.mpr nofun
  have hnotuser : place ≠ .user := by rcases hplace with rfl | rfl <;> nofun
  have hnotidle : place ≠ .idle := by rcases hplace with rfl | rfl <;> nofun
  constructor
  case indexed => exact hkept.indexed
  case users_nodup => exact hkept.users_nodup.erase id
  case pool_nodup => exact hnodup
  case lists_nodup => exact hkept.lists_nodup
  case notify_lt => exact hkept.notify_lt
  case dead_lt =>
    intro id' hid'
    rcases (hdead id').mp hid' with hmem | ⟨rfl, -⟩
    · exact hkept.dead_lt id' hmem
    · exact hlt
  case places =>
    intro id'
    by_cases hid : id' = id
    · subst hid
      refine ⟨place, ?_, ?_, ?_, ?_, ?_, ?_, ?_, ?_, ?_⟩
      · exact ⟨fun hmem => absurd hmem hkept.users_nodup.not_mem_erase, fun h => absurd h hnotuser⟩
      · refine (hpool id').trans ⟨?_, fun h => Or.inr ⟨rfl, h⟩⟩
        rintro (hmem | ⟨-, h⟩)
        · exact nomatch hat.pool.mp hmem
        · exact h
      · constructor
        · rintro ⟨-, hnot⟩ hgone
          exact hnot ((hdead id').mpr (Or.inr ⟨rfl, hgone⟩))
        · refine fun hne => ⟨hlt, fun hmem => ?_⟩
          rcases (hdead id').mp hmem with hold | ⟨-, hgone⟩
          · exact halive hold
          · exact hne hgone
      · dsimp only
        rw [Function.update_self]
        exact ⟨fun h => (nomatch hat.in_list.mp h), fun h => absurd h hnotidle⟩
      · dsimp only
        rw [Function.update_self]
        exact ⟨fun h => (nomatch hat.in_kqueue.mp h), fun h => absurd h hnotidle⟩
      · exact fun key => ⟨fun hmem => (nomatch ((hat.listed key).mp hmem).1), fun h => absurd h.1 hnotidle⟩
      · exact ⟨fun _ => hnotidle, fun _ => hat.timer.mpr nofun⟩
      · exact fun fd => ⟨fun h => (nomatch ((hat.notified fd).mp h).1), fun h => absurd h.1 hnotidle⟩
      · exact fun h => absurd h hnotidle
    · obtain ⟨place', hplace'⟩ := hkept.places id'
      refine ⟨place', hplace'.frame ?_ ?_ ?_ ?_ ?_ ?_ ?_⟩
      · exact Function.update_of_ne hid _ _
      · exact List.mem_erase_of_ne hid
      · exact (hpool id').trans (or_iff_left fun h => hid h.1)
      · refine and_congr_right fun _ => not_congr ?_
        exact (hdead id').trans (or_iff_left fun h => hid h.1)
      · exact fun _ => Iff.rfl
      · exact Iff.rfl
      · exact fun _ => Iff.rfl

theorem release_kept (hkept : Kept s) (huser : id ∈ s.users) :
    Kept (({ s with users := s.users.erase id }.reset id).freePtr id) := by
  have hat := hkept.at_user huser
  unfold TcpKeepMgr.freePtr
  split
  · refine left_kept hkept huser (Or.inr rfl) hkept.pool_nodup (fun id' => ?_) (fun id' => ?_)
    · exact (or_iff_left fun h => (nomatch h.2)).symm
    · rw [List.mem_cons, or_comm, and_iff_left rfl]
      rfl
  · refine left_kept hkept huser (Or.inl rfl) ?_ (fun id' => ?_) (fun id' => ?_)
    · rw [List.nodup_append_comm, List.singleton_append, List.nodup_cons]
      exact ⟨fun hmem => (nomatch hat.pool.mp hmem), hkept.pool_nodup⟩
    · rw [List.mem_append, List.mem_singleton, and_iff_left rfl]
      rfl
    · exact (or_iff_left fun h => (nomatch h.2)).symm

/-- A caller gets a connection from the pool, or a new one. -/
theorem taken_kept (hkept : Kept s) (hat : At s id place) (hplace : place = .pool ∨ place = .gone) {total : ℕ}
    (hnodup : pool.Nodup) (hpool : ∀ id', id' ∈ pool ↔ id' ∈ s.pool ∧ id' ≠ id)
    (htotal : ∀ id', id' < total ↔ id' < s.total ∨ id' = id) (halive : id ∉ s.dead) (dst : ℕ × ℕ) :
    Kept { s with
      conns := Function.update s.conns id { s.conns id with dst_addr := dst }
      users := id :: s.users, pool := pool, total := total } := by
  have hnotuser : place ≠ .user := by rcases hplace with rfl | rfl <;> nofun
  have hnotidle : place ≠ .idle := by rcases hplace with rfl | rfl <;> nofun
  constructor
  case indexed => exact hkept.indexed
  case users_nodup => exact List.nodup_cons.mpr ⟨fun hmem => hnotuser (hat.users.mp hmem), hkept.users_nodup⟩
  case pool_nodup => exact hnodup
  case lists_nodup => exact hkept.lists_nodup
  case notify_lt => exact hkept.notify_lt
  case dead_lt => exact fun id' hmem => (htotal id').mpr (Or.inl (hkept.dead_lt id' hmem))
  case places =>
    intro id'
    by_cases hid : id' = id
    · subst hid
      refine ⟨.user, ?_, ?_, ?_, ?_, ?_, ?_, ?_, ?_, nofun⟩
      · exact ⟨fun _ => rfl, fun _ => List.mem_cons_self⟩
      · exact ⟨fun hmem => absurd rfl ((hpool id').mp hmem).2, nofun⟩
      · exact ⟨fun _ => nofun, fun _ => ⟨(htotal id').mpr (Or.inr rfl), halive⟩⟩
      · dsimp only
        rw [Function.update_self]
        exact ⟨fun h => absurd (hat.in_list.mp h) hnotidle, nofun⟩
      · dsimp only
        rw [Function.update_self]
        exact ⟨fun h => absurd (hat.in_kqueue.mp h) hnotidle, nofun⟩
      · exact fun key => ⟨fun hmem => absurd ((hat.listed key).mp hmem).1 hnotidle, fun h => (nomatch h.1)⟩
      · exact ⟨fun _ => nofun, fun _ => hat.timer.mpr hnotidle⟩
      · exact fun fd => ⟨fun h => absurd ((hat.notified fd).mp h).1 hnotidle, fun h => (nomatch h.1)⟩
    · obtain ⟨place', hplace'⟩ := hkept.places id'
      refine ⟨place', hplace'.frame ?_ ?_ ?_ ?_ ?_ ?_ ?_⟩
      · exact Function.update_of_ne hid _ _
      · exact List.mem_cons.trans (or_iff_right hid)
      · exact (hpool id').trans (and_iff_left hid)
      · exact and_congr_left fun _ => (htotal id').trans (or_iff_left hid)
      · exact fun _ => Iff.rfl
      · exact Iff.rfl
      · exact fun _ => Iff.rfl

/-! ## Into a list -/

/-- A caller leaves a connection in the list of its destination, with a timer and in the kqueue. -/
theorem attached_kept (hkept : Kept s) (huser : id ∈ s.users) (hosfd : (s.conns id).osfd = some fd)
    (hlt : fd < s.maxfd) (hfree : s.notify fd = none) (hip : (s.conns id).dst_addr.1 ≠ 0)
    (hport : (s.conns id).dst_addr.2 ≠ 0) (hindexed : Indexed timers.heap none)
    (htimer : ∀ e, timers.heap.index e = 0 ↔ e ≠ .conn id ∧ s.timers.heap.index e = 0)
    (hlists : ∀ key, (keep_hash key).getD [] =
      if key = (s.conns id).dst_addr then keepList s key ++ [id] else keepList s key) :
    Kept { s with
      conns := Function.update s.conns id { s.conns id with in_kqueue := true, in_list := true }
      users := s.users.erase id, timers := timers, keep_hash := keep_hash
      notify := Function.update s.notify fd (some (.conn id)) } := by
  have hat := hkept.at_user huser
  have hnotlisted : ∀ key, id ∉ keepList s key := fun key hmem => nomatch ((hat.listed key).mp hmem).1
  constructor
  case indexed => exact hindexed
  case users_nodup => exact hkept.users_nodup.erase id
  case pool_nodup => exact hkept.pool_nodup
  case lists_nodup =>
    intro key
    unfold keepList
    dsimp only
    rw [hlists]
    split
    · rw [List.nodup_append_comm, List.singleton_append, List.nodup_cons]
      exact ⟨hnotlisted key, hkept.lists_nodup key⟩
    · exact hkept.lists_nodup key
  case notify_lt =>
    intro fd' obj hobj
    dsimp only at hobj ⊢
    rw [Function.update_apply] at hobj
    split at hobj
    · next hfd => rwa [hfd]
    · exact hkept.notify_lt fd' obj hobj
  case dead_lt => exact hkept.dead_lt
  case places =>
    intro id'
    by_cases hid : id' = id
    · subst hid
      refine ⟨.idle, ?_, ?_, ?_, ?_, ?_, ?_, ?_, ?_, ?_⟩
      · exact ⟨fun hmem => absurd hmem hkept.users_nodup.not_mem_erase, nofun⟩
      · exact ⟨fun hmem => (nomatch hat.pool.mp hmem), nofun⟩
      · exact ⟨fun _ => nofun, fun _ => hat.alive.mpr nofun⟩
      · dsimp only
        rw [Function.update_self]
        exact ⟨fun _ => rfl, fun _ => rfl⟩
      · dsimp only
        rw [Function.update_self]
        exact ⟨fun _ => rfl, fun _ => rfl⟩
      · intro key
        unfold keepList
        dsimp only
        rw [hlists, Function.update_self]
        split
        · next hkey => exact ⟨fun _ => ⟨rfl, hkey.symm⟩, fun _ => List.mem_append_right _ List.mem_cons_self⟩
        · next hkey => exact ⟨fun hmem => absurd hmem (hnotlisted key), fun h => absurd h.2.symm hkey⟩
      · exact ⟨fun hzero => absurd rfl ((htimer _).mp hzero).1, fun h => absurd rfl h⟩
      · intro fd'
        dsimp only
        rw [Function.update_apply, Function.update_self]
        split
        · next hfd => exact ⟨fun _ => ⟨rfl, hosfd.trans (congrArg some hfd.symm)⟩, fun _ => rfl⟩
        · next hfd =>
          refine ⟨fun h => (nomatch ((hat.notified fd').mp h).1), fun h => ?_⟩
          exact absurd (Option.some.inj (h.2.symm.trans hosfd)) hfd
      · intro _
        dsimp only
        rw [Function.update_self]
        exact ⟨Option.ne_none_iff_exists'.mpr ⟨fd, hosfd⟩, hip, hport⟩
    · obtain ⟨place', hplace'⟩ := hkept.places id'
      refine ⟨place', hplace'.frame ?_ ?_ ?_ ?_ ?_ ?_ ?_⟩
      · exact Function.update_of_ne hid _ _
      · exact List.mem_erase_of_ne hid
      · exact Iff.rfl
      · exact Iff.rfl
      · intro key
        unfold keepList
        dsimp only
        rw [hlists]
        split
        · rw [List.mem_append, List.mem_singleton]
          exact or_iff_left hid
        · rfl
      · exact (htimer _).trans (and_iff_right fun h => hid (KeepObj.conn.inj h))
      · intro fd'
        dsimp only
        rw [Function.update_apply]
        split
        · next hfd =>
          rw [hfd, hfree]
          exact ⟨fun h => absurd (KeepObj.conn.inj (Option.some.inj h)).symm hid, nofun⟩
        · rfl

/-- Steps about something else than a connection: the timers, the kqueue and empty lists may change. -/
theorem Kept.beside (hkept : Kept s) {notify : ℕ → Option KeepObj} (hindexed : Indexed timers.heap none)
    (htimer : ∀ id, timers.heap.index (.conn id) = 0 ↔ s.timers.heap.index (.conn id) = 0)
    (hlists : ∀ key, (keep_hash key).getD [] = keepList s key)
    (hnotify : ∀ fd id, notify fd = some (.conn id) ↔ s.notify fd = some (.conn id))
    (hlt : ∀ fd obj, notify fd = some obj → fd < s.maxfd) :
    Kept { s with timers := timers, keep_hash := keep_hash, notify := notify } where
  indexed := hindexed
  users_nodup := hkept.users_nodup
  pool_nodup := hkept.pool_nodup
  lists_nodup key := by
    unfold keepList
    dsimp only
    rw [hlists]
    exact hkept.lists_nodup key
  notify_lt := hlt
  dead_lt := hkept.dead_lt
  places id := by
    obtain ⟨place, hat⟩ := hkept.places id
    refine ⟨place, hat.frame rfl Iff.rfl Iff.rfl Iff.rfl ?_ (htimer id) fun fd => hnotify fd id⟩
    intro key
    unfold keepList
    dsimp only
    rw [hlists]
    rfl

theorem Kept.setTimers (hkept : Kept s) (hindexed : Indexed timers.heap none)
    (htimer : ∀ id, timers.heap.index (.conn id) = 0 ↔ s.timers.heap.index (.conn id) = 0) :
    Kept { s with timers := timers } :=
  hkept.beside hindexed htimer (fun _ => rfl) (fun _ _ => Iff.rfl) hkept.notify_lt

theorem findCreateList_eq (s : TcpKeepMgr) (dst : ℕ × ℕ) :
    ∃ keep_hash, s.findCreateList dst = { s with keep_hash := keep_hash } ∧
      ∀ key, (keep_hash key).getD [] = keepList s key := by
  unfold TcpKeepMgr.findCreateList
  split
  · next hnone =>
    refine ⟨_, rfl, fun key => ?_⟩
    rw [Function.update_apply]
    split
    · next hkey =>
      unfold keepList
      rw [hkey, hnone]
      rfl
    · rfl
  · exact ⟨s.keep_hash, rfl, fun _ => rfl⟩

/-! ## Steps -/

/-- The condition for a connection that its caller leaves in a list. -/
def Attachable (s : TcpKeepMgr) (id : ℕ) (ctl : Bool) : Prop :=
  s.timers.heap.count < s.timers.heap.max →
    ∀ fd ∈ (s.conns id).osfd, fd < s.maxfd ∧ s.notify fd = none ∧ ctl = true

theorem kqueueAddObj_eq (obj : KeepObj) (hfree : s.notify fd = none) (hlt : fd < s.maxfd) :
    s.kqueueAddObj obj fd true = ({ s with notify := Function.update s.notify fd (some obj) }, true) := by
  have hconflict : ¬(s.notify fd ≠ none ∧ s.notify fd ≠ some obj) := fun h => h.1 hfree
  unfold TcpKeepMgr.kqueueAddObj
  rw [if_neg (Nat.not_le.mpr hlt), if_neg hconflict, if_pos rfl]

theorem insertConn_eq (hlist : (s.conns id).in_list = false) (key : ℕ × ℕ) :
    s.insertConn key id = { s with
      conns := Function.update s.conns id { s.conns id with in_list := true }
      keep_hash := Function.update s.keep_hash key (some ((s.keep_hash key).getD [] ++ [id])) } := by
  unfold TcpKeepMgr.insertConn
  rw [hlist, if_neg Bool.false_ne_true]
  rfl

/-- `IdleAttach` of a connection without a registration: no timer was started, or everything went through. -/
theorem idleAttach_cases (hindexed : Indexed s.timers.heap none) (hkqueue : (s.conns id).in_kqueue = false) (now : ℕ)
    (hsafe : Attachable s id ctl) :
    (∃ timers, timers.heap = s.timers.heap ∧ s.idleAttach id now ctl = ({ s with timers := timers }, false)) ∨
      ∃ fd timers, (s.conns id).osfd = some fd ∧ fd < s.maxfd ∧ s.notify fd = none ∧ Indexed timers.heap none ∧
        (∀ e, timers.heap.index e = 0 ↔ e ≠ .conn id ∧ s.timers.heap.index e = 0) ∧
        s.idleAttach id now ctl =
          ({ s with
              conns := Function.update s.conns id { s.conns id with in_kqueue := true }
              timers := timers
              notify := Function.update s.notify fd (some (.conn id)) }, true) := by
  unfold TcpKeepMgr.idleAttach
  split
  · exact Or.inl ⟨s.timers, rfl, rfl⟩
  · next fd hosfd =>
    rw [hkqueue, if_neg Bool.false_ne_true]
    dsimp only
    rcases startTimer_cases hindexed (.conn id) TcpKeepMgr.KEEP_TIME now with
      ⟨hok, hroom, hstarted, hindex⟩ | ⟨hfail, hsame⟩
    · obtain ⟨hlt, hfree, rfl⟩ := hsafe hroom fd hosfd
      refine Or.inr ⟨fd, _, hosfd, hlt, hfree, hstarted, hindex, ?_⟩
      have hadd := kqueueAddObj_eq
        (s := { s with timers := (s.timers.startTimer (.conn id) TcpKeepMgr.KEEP_TIME now).1 }) (.conn id) hfree hlt
      rw [hok, if_pos rfl, hadd, if_pos rfl]
      rfl
    · refine Or.inl ⟨_, hsame, ?_⟩
      rw [hfail, if_neg Bool.false_ne_true]

/-- A caller gives a connection back. -/
theorem free_kept (hkept : Kept s) (huser : id ∈ s.users) {force_free : Bool}
    (hsafe : force_free = false → (s.conns id).dst_addr.1 ≠ 0 → (s.conns id).dst_addr.2 ≠ 0 → Attachable s id ctl) :
    Kept ({ s with users := s.users.erase id }.freeTcpKeepConn id force_free now ctl) := by
  unfold TcpKeepMgr.freeTcpKeepConn
  cases force_free with
  | true => exact release_kept hkept huser
  | false =>
    rw [if_neg Bool.false_ne_true]
    unfold TcpKeepMgr.cacheTcpKeepConn
    dsimp only
    by_cases hdst : (s.conns id).dst_addr.1 = 0 ∨ (s.conns id).dst_addr.2 = 0
    · rw [if_pos hdst]
      exact release_kept hkept huser
    rw [if_neg hdst]
    obtain ⟨hip, hport⟩ := not_or.mp hdst
    obtain ⟨keep_hash, hfound, hlists⟩ :=
      findCreateList_eq { s with users := s.users.erase id } (s.conns id).dst_addr
    rw [hfound]
    have hat := hkept.at_user huser
    have hkqueue : (s.conns id).in_kqueue = false := Bool.eq_false_iff.mpr fun h => nomatch hat.in_kqueue.mp h
    rcases idleAttach_cases (s := { s with users := s.users.erase id, keep_hash := keep_hash }) hkept.indexed hkqueue
      now (hsafe rfl hip hport) with
      ⟨timers, hsame, hattach⟩ | ⟨fd, timers, hosfd, hlt, hfree, hstarted, hindex, hattach⟩
    · have hindexed : Indexed timers.heap none := by rw [hsame]; exact hkept.indexed
      have hbeside : Kept { s with timers := timers, keep_hash := keep_hash } :=
        hkept.beside hindexed (fun _ => by rw [hsame]) hlists (fun _ _ => Iff.rfl) hkept.notify_lt
      rw [hattach]
      dsimp only
      rw [if_neg Bool.false_ne_true, if_neg Bool.false_ne_true]
      exact release_kept hbeside huser
    · have hlist : (s.conns id).in_list = false := Bool.eq_false_iff.mpr fun h => nomatch hat.in_list.mp h
      rw [hattach]
      dsimp only
      rw [if_pos rfl, if_pos rfl]
      rw [insertConn_eq (by dsimp only; rw [Function.update_self]; exact hlist)]
      dsimp only
      rw [Function.update_self, Function.update_idem]
      refine attached_kept hkept huser hosfd hlt hfree hip hport hstarted hindex fun key => ?_
      rw [Function.update_apply]
      split
      · next hkey =>
        rw [Option.getD_some, hlists, hkey]
        rfl
      · exact hlists key

/-- A caller gets a connection, which has the destination that was asked for. -/
theorem get_kept (hkept : Kept s) (dst : ℕ × ℕ) (hsafe : keepList s dst ≠ [] → ctl = true) :
    Kept { (s.getTcpKeepConn dst ctl).1 with
      users := (s.getTcpKeepConn dst ctl).2 :: (s.getTcpKeepConn dst ctl).1.users } ∧
      ((s.getTcpKeepConn dst ctl).1.conns (s.getTcpKeepConn dst ctl).2).dst_addr = dst := by
  unfold TcpKeepMgr.getTcpKeepConn
  split
  · next id rest hlist =>
    have hlisted : id ∈ keepList s dst := by
      unfold keepList
      rw [hlist]
      exact List.mem_cons_self
    obtain rfl := hsafe (List.ne_nil_of_mem hlisted)
    obtain ⟨place, hat⟩ := hkept.places id
    obtain ⟨rfl, hdst⟩ := (hat.listed dst).mp hlisted
    obtain ⟨fd, hon⟩ := hkept.idleOn hat
    dsimp only
    rw [removeConn_idleDetach hon]
    refine ⟨detached_kept hkept hat hon, ?_⟩
    unfold detached
    dsimp only
    rw [Function.update_self]
    exact hdst
  · unfold TcpKeepMgr.allocPtr TcpKeepMgr.setConn
    cases hpool : s.pool with
    | cons id rest =>
      have hnodup := hkept.pool_nodup
      rw [hpool, List.nodup_cons] at hnodup
      have hmem : id ∈ s.pool := by rw [hpool]; exact List.mem_cons_self
      obtain ⟨place, hat⟩ := hkept.places id
      obtain rfl := hat.pool.mp hmem
      obtain ⟨hlt, halive⟩ := hat.alive.mpr nofun
      refine ⟨taken_kept hkept hat (Or.inl rfl) hnodup.2 (fun id' => ?_) (fun id' => ?_) halive dst, ?_⟩
      · rw [hpool, List.mem_cons]
        constructor
        · exact fun hrest => ⟨Or.inr hrest, fun heq => hnodup.1 (heq ▸ hrest)⟩
        · exact fun h => h.1.resolve_left h.2
      · refine ⟨Or.inl, ?_⟩
        rintro (hlt' | rfl)
        · exact hlt'
        · exact hlt
      · dsimp only
        rw [Function.update_self]
    | nil =>
      have halive : s.total ∉ s.dead := fun hmem => absurd (hkept.dead_lt _ hmem) (lt_irrefl _)
      obtain ⟨place, hat⟩ := hkept.places s.total
      have hgone : place = .gone := by
        by_contra hne
        exact absurd (hat.alive.mpr hne).1 (lt_irrefl _)
      refine ⟨taken_kept hkept hat (Or.inr hgone) List.nodup_nil (fun id' => ?_) (fun id' => ?_) halive dst, ?_⟩
      · rw [hpool]
        exact ⟨nofun, fun h => (nomatch h.1)⟩
      · exact Nat.lt_succ_iff_lt_or_eq
      · dsimp only
        rw [Function.update_self]

/-- `CloseIdleTcpKeep` takes an idle connection from its list and resets it. -/
theorem closeIdle_eq (hon : IdleOn s id fd) (hip : (s.conns id).dst_addr.1 ≠ 0) (hport : (s.conns id).dst_addr.2 ≠ 0)
    (hlisted : id ∈ keepList s (s.conns id).dst_addr) :
    s.closeIdleTcpKeep id true = ((detached s id fd).reset id).freePtr id := by
  have hdst : ¬((s.conns id).dst_addr.1 = 0 ∨ (s.conns id).dst_addr.2 = 0) := not_or.mpr ⟨hip, hport⟩
  unfold TcpKeepMgr.closeIdleTcpKeep TcpKeepMgr.removeTcpKeepConn
  dsimp only
  rw [if_neg hdst]
  split
  · next hnone =>
    unfold keepList at hlisted
    rw [hnone] at hlisted
    cases hlisted
  · rw [idleDetach_removeConn hon]
    rfl

/-- A connection that was taken from its list is reset. -/
theorem closed_kept (hkept : Kept s) (hat : At s id .idle) (hon : IdleOn s id fd) :
    Kept (((detached s id fd).reset id).freePtr id) := by
  have hfreed := release_kept (detached_kept hkept hat hon) (List.mem_cons_self (a := id))
  dsimp only at hfreed
  rw [List.erase_cons_head] at hfreed
  exact hfreed

/-- An event of the descriptor of an idle connection. -/
theorem close_kept (hkept : Kept s) (hat : At s id .idle) : Kept (s.closeIdleTcpKeep id true) := by
  obtain ⟨fd, hon⟩ := hkept.idleOn hat
  obtain ⟨-, hip, hport⟩ := hat.opened rfl
  rw [closeIdle_eq hon hip hport ((hat.listed _).mpr ⟨rfl, rfl⟩)]
  exact closed_kept hkept hat hon

/-- The timer of an idle connection, which has left the heap when the connection is closed. -/
theorem expire_kept (hkept : Kept s) (hat : At s id .idle) :
    Kept ({ s with timers := s.timers.stopTimer (.conn id) }.closeIdleTcpKeep id true) := by
  obtain ⟨fd, hon⟩ := hkept.idleOn hat
  obtain ⟨-, hip, hport⟩ := hat.opened rfl
  have hon' : IdleOn { s with timers := s.timers.stopTimer (.conn id) } id fd :=
    ⟨hon.osfd, hon.in_kqueue, hon.in_list, hon.notify, hon.lt⟩
  have hsame : detached { s with timers := s.timers.stopTimer (.conn id) } id fd = detached s id fd := by
    unfold detached
    dsimp only
    rw [stopTimer_twice hkept.indexed]
  rw [closeIdle_eq hon' hip hport ((hat.listed _).mpr ⟨rfl, rfl⟩), hsame]
  exact closed_kept hkept hat hon

theorem checkExpired_kept (hkept : Kept s)
    (hsafe : ∀ timer ∈ s.timers.heap.heapTop, isConn timer = true → s.timers.expired timer ≤ now → ctl = true) :
    Kept (s.checkExpired now ctl) := by
  unfold TcpKeepMgr.checkExpired
  split
  · exact hkept
  next timer htop =>
  split
  · next hdue =>
    cases timer with
    | conn id =>
      obtain rfl := hsafe _ htop rfl hdue
      obtain ⟨-, -, hfirst⟩ := hkept.indexed.heapTop_eq htop
      obtain ⟨place, hat⟩ := hkept.places id
      have hidle : place = .idle := by
        by_contra hne
        rw [hat.timer.mpr hne] at hfirst
        cases hfirst
      subst hidle
      exact expire_kept hkept hat
    | other id =>
      obtain ⟨hindexed, hindex⟩ := stopTimer_out hkept.indexed (.other id)
      exact hkept.setTimers hindexed fun id' => (hindex _).trans (or_iff_right nofun)
  · exact hkept

/-- What a caller does with its connection does not matter. -/
theorem create_kept (hkept : Kept s) (huser : id ∈ s.users) (socket : Option ℕ) : Kept (s.createSocket id socket) := by
  have hat := hkept.at_user huser
  unfold TcpKeepMgr.createSocket
  split
  · exact hkept
  refine ⟨hkept.indexed, hkept.users_nodup, hkept.pool_nodup, hkept.lists_nodup, hkept.notify_lt, hkept.dead_lt, ?_⟩
  intro id'
  by_cases hid : id' = id
  · subst hid
    have hconn : (s.setConn id' { s.conns id' with osfd := socket }).conns id' = { s.conns id' with osfd := socket } :=
      Function.update_self _ _ _
    refine ⟨.user, hat.users, hat.pool, hat.alive, ?_, ?_, ?_, hat.timer, ?_, nofun⟩
    · rw [hconn]
      exact hat.in_list
    · rw [hconn]
      exact hat.in_kqueue
    · exact fun key => ⟨fun hmem => (nomatch ((hat.listed key).mp hmem).1), fun h => (nomatch h.1)⟩
    · exact fun fd => ⟨fun h => (nomatch ((hat.notified fd).mp h).1), fun h => (nomatch h.1)⟩
  · obtain ⟨place, hplace⟩ := hkept.places id'
    refine ⟨place, hplace.frame ?_ Iff.rfl Iff.rfl Iff.rfl (fun _ => Iff.rfl) Iff.rfl fun _ => Iff.rfl⟩
    exact Function.update_of_ne hid _ _

/-- Something else than a connection registers a descriptor. -/
theorem addOther_kept (hkept : Kept s) (other fd : ℕ) (ctl : Bool) :
    Kept (s.kqueueAddObj (.other other) fd ctl).1 := by
  unfold TcpKeepMgr.kqueueAddObj
  split
  · exact hkept
  next hlt =>
  split
  · exact hkept
  next hconflict =>
  split
  · refine hkept.beside hkept.indexed (fun _ => Iff.rfl) (fun _ => rfl) (fun fd' id => ?_) fun fd' obj hobj => ?_
    · rw [Function.update_apply]
      split
      · next hfd =>
        refine ⟨nofun, fun hconn => absurd ⟨?_, ?_⟩ hconflict⟩
        · rw [← hfd, hconn]
          nofun
        · rw [← hfd, hconn]
          nofun
      · rfl
    · rw [Function.update_apply] at hobj
      split at hobj
      · next hfd =>
        rw [hfd]
        exact Nat.not_le.mp hlt
      · exact hkept.notify_lt fd' obj hobj
  · exact hkept

theorem delOther_kept (hkept : Kept s) (other fd : ℕ) (ctl : Bool) :
    Kept (s.kqueueDelObj (.other other) fd ctl).1 := by
  unfold TcpKeepMgr.kqueueDelObj
  split
  · exact hkept
  split
  · exact hkept
  next howner =>
  split
  · refine hkept.beside hkept.indexed (fun _ => Iff.rfl) (fun _ => rfl) (fun fd' id => ?_) fun fd' obj hobj => ?_
    · rw [Function.update_apply]
      split
      · next hfd =>
        rw [hfd, not_not.mp howner]
        exact ⟨nofun, nofun⟩
      · rfl
    · rw [Function.update_apply] at hobj
      split at hobj
      · cases hobj
      · exact hkept.notify_lt fd' obj hobj
  · exact hkept

theorem step_kept (hkept : Kept s) (op : KeepStep) (hsafe : KeepSafe s op) : Kept (s.step op).1 := by
  cases op with
  | get dst ctl => exact (get_kept hkept dst hsafe).1
  | create id socket =>
    unfold TcpKeepMgr.step
    dsimp only
    split
    · next huser => exact create_kept hkept huser socket
    · exact hkept
  | free id force_free now ctl =>
    unfold TcpKeepMgr.step
    dsimp only
    split
    · next huser => exact free_kept hkept huser (hsafe huser)
    · exact hkept
  | expire now ctl => exact checkExpired_kept hkept hsafe
  | event fd ctl =>
    unfold TcpKeepMgr.step
    dsimp only
    split
    · next obj hobj =>
      cases obj with
      | conn id =>
        obtain rfl := hsafe _ hobj rfl
        obtain ⟨place, hat⟩ := hkept.places id
        obtain ⟨rfl, -⟩ := (hat.notified fd).mp hobj
        exact close_kept hkept hat
      | other id => exact hkept
    · exact hkept
  | startOther id interval now =>
    refine hkept.setTimers ?_ ?_
    all_goals
      rcases startTimer_cases hkept.indexed (.other id) interval now with ⟨-, -, hindexed, hindex⟩ | ⟨-, hsame⟩
    · exact hindexed
    · rw [hsame]
      exact hkept.indexed
    · exact fun id' => (hindex _).trans (and_iff_right nofun)
    · exact fun id' => by rw [hsame]
  | stopOther id =>
    obtain ⟨hindexed, hindex⟩ := stopTimer_out hkept.indexed (.other id)
    exact hkept.setTimers hindexed fun id' => (hindex _).trans (or_iff_right nofun)
  | addOther id fd ctl => exact addOther_kept hkept id fd ctl
  | delOther id fd ctl => exact delOther_kept hkept id fd ctl

theorem step_keepRight (hkept : Kept s) {op : KeepStep} (hsafe : KeepSafe s op) : KeepRight s op := by
  refine ⟨fun id hid halive => (step_kept hkept op hsafe).owned hid halive, ?_⟩
  rintro dst ctl rfl
  exact ⟨_, rfl, (get_kept hkept dst hsafe).2⟩

/-- INTERNAL: a run in which the kqueue gives up every connection that leaves its list, and takes every connection
for which a timer can be started, keeps every connection with one owner. -/
theorem keepConns_owned {max_item maxfd : ℕ} {ops : List KeepStep}
    (hsafe : AllSteps (fun s op => (s.step op).1) KeepSafe (TcpKeepMgr.init max_item maxfd) ops) :
    AllSteps (fun s op => (s.step op).1) KeepRight (TcpKeepMgr.init max_item maxfd) ops :=
  AllSteps.imp (I := Kept) (fun _ op => fun hkept hop => step_kept hkept op hop)
    (fun _ _ hkept hop => step_keepRight hkept hop) (init_kept max_item maxfd) hsafe

/-- A connection that is used twice, closed by the other side, and taken from the pool; another one times out. -/
theorem keepConns_owned_two :
    AllSteps (fun s op => (s.step op).1) KeepRight (TcpKeepMgr.init 100 100000)
      [.get (1, 80) true, .create 0 (some 5), .free 0 false 10 true, .get (1, 80) true, .free 0 false 20 true,
        .event 5 true, .get (1, 80) true, .free 0 true 30 true, .get (2, 80) true, .create 0 (some 6),
        .free 0 false 40 true, .expire 600040 true] :=
  keepConns_owned (by decide)

/-- The timer of a connection is started, the kqueue refuses it, and it goes to the pool with the timer. -/
theorem keepConn_pooled_with_timer :
    ¬AllSteps (fun s op => (s.step op).1) KeepRight (TcpKeepMgr.init 100 100000)
      [.get (1, 80) true, .create 0 (some 5), .free 0 false 10 false] := by
  rintro ⟨-, -, hright, -⟩
  rcases hright.owned 0 (by decide) (by decide) with hused | hidle | hpooled
  · exact absurd hused.users (by decide)
  · exact absurd hidle.list (by decide)
  · exact absurd hpooled.timer (by decide)

end FStack.Analysis
