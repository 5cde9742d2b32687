import FStack.Model.FdRecords

/-!
# The records of closed descriptors

A closed descriptor should leave nothing in the table of the kqueue.  `Clean` is the invariant: a record without an
object is empty, and what an object holds in its record is bounded by its mask, so that the object can give it back.
Here are the operations of links, calls and sessions; connections and runs are in `FStack.Analysis.ClosedRecords`.
-/

set_option autoImplicit false

namespace FStack.Analysis

open FStack.Model FStack.Model.FdWorld FStack.Prelude

variable {s : FdWorld} {fd : ℕ}
variable {r : FdRecord} {n m id : ℕ} {obj : NtfyObj} {events : KqEvents} {answer : Option ℕ}

/-! ## One record -/

/-- How many references in a direction are kept by an object with a mask. -/
def inMask (dir : EvFilter) (events : KqEvents) : ℕ := if dir ∈ events then 1 else 0

/-- At most so many references in each direction, and a direction without one is not listened to. -/
structure Bounded (r : FdRecord) (n m : ℕ) : Prop where
  rd_ref : r.rd_ref ≤ n
  wr_ref : r.wr_ref ≤ m
  read : .read ∈ r.events → 0 < n
  write : .write ∈ r.events → 0 < m

/-- The record after `KqueueCtrlAdd`. -/
def added (r : FdRecord) (events : KqEvents) : FdRecord :=
  { r.attachEvents events with events := r.events ∪ events }

/-- The record after `KqueueCtrlDel`. -/
def deleted (r : FdRecord) (events : KqEvents) : FdRecord :=
  { r.detachEvents events with events := r.events \ events }

@[simp] theorem added_kqobj (r : FdRecord) (events : KqEvents) : (added r events).kqobj = r.kqobj := rfl

@[simp] theorem deleted_kqobj (r : FdRecord) (events : KqEvents) : (deleted r events).kqobj = r.kqobj := rfl

theorem Bounded.empty (obj : Option NtfyObj) : Bounded { kqobj := obj } 0 0 :=
  ⟨le_rfl, le_rfl, by simp, by simp⟩

theorem Bounded.mono {r : FdRecord} {n m n' m' : ℕ} (h : Bounded r n m) (hn : n ≤ n') (hm : m ≤ m') :
    Bounded r n' m' :=
  ⟨h.rd_ref.trans hn, h.wr_ref.trans hm, fun hr => (h.read hr).trans_le hn, fun hw => (h.write hw).trans_le hm⟩

theorem Bounded.setObj (h : Bounded r n m) (obj : Option NtfyObj) :
    Bounded { r with kqobj := obj } n m :=
  ⟨h.rd_ref, h.wr_ref, h.read, h.write⟩

/-- The new references are counted. -/
theorem Bounded.add {r : FdRecord} {n m : ℕ} (h : Bounded r n m) (events : KqEvents) :
    Bounded (added r events) (n + inMask .read events) (m + inMask .write events) := by
  obtain ⟨hrd, hwr, hread, hwrite⟩ := h
  refine ⟨?_, ?_, ?_, ?_⟩
  · unfold added FdRecord.attachEvents inMask
    dsimp only
    split <;> omega
  · unfold added FdRecord.attachEvents inMask
    dsimp only
    split <;> omega
  · intro hmem
    rcases Finset.mem_union.mp hmem with hr | hr
    · have := hread hr
      omega
    · simp [inMask, hr]
  · intro hmem
    rcases Finset.mem_union.mp hmem with hw | hw
    · have := hwrite hw
      omega
    · simp [inMask, hw]

/-- The references in the mask are gone. -/
theorem Bounded.del (h : Bounded r n m) (events : KqEvents) :
    Bounded (deleted r events) (n - inMask .read events) (m - inMask .write events) := by
  obtain ⟨hrd, hwr, hread, hwrite⟩ := h
  refine ⟨?_, ?_, ?_, ?_⟩
  · unfold deleted FdRecord.detachEvents inMask
    dsimp only
    split <;> omega
  · unfold deleted FdRecord.detachEvents inMask
    dsimp only
    split <;> omega
  · intro hmem
    obtain ⟨hr, hnot⟩ := Finset.mem_sdiff.mp hmem
    simpa [inMask, hnot] using hread hr
  · intro hmem
    obtain ⟨hw, hnot⟩ := Finset.mem_sdiff.mp hmem
    simpa [inMask, hnot] using hwrite hw

theorem Bounded.del_le (h : Bounded r n m) (events : KqEvents) :
    Bounded (deleted r events) n m :=
  (h.del events).mono (Nat.sub_le _ _) (Nat.sub_le _ _)

/-- A record without references, and without an object, is as it was at the start. -/
theorem Bounded.eq_empty (h : Bounded r 0 0) (hobj : r.kqobj = none) : r = {} := by
  obtain ⟨wr_ref, rd_ref, events, kqobj⟩ := r
  obtain ⟨hrd, hwr, hread, hwrite⟩ := h
  have hevents : events = ∅ := by
    refine Finset.eq_empty_of_forall_notMem fun dir hdir => ?_
    cases dir with
    | read => exact absurd (hread hdir) (lt_irrefl 0)
    | write => exact absurd (hwrite hdir) (lt_irrefl 0)
  obtain rfl : rd_ref = 0 := Nat.le_zero.mp hrd
  obtain rfl : wr_ref = 0 := Nat.le_zero.mp hwr
  subst hevents
  subst hobj
  rfl

/-! ## What the kqueue does -/

/-- The filters after `KqueueCtrlAdd` on a descriptor that has these. -/
def addedFilters (r : FdRecord) (filters events : KqEvents) : KqEvents :=
  if r.events = r.events ∪ events then filters else filters \ r.events ∪ events

/-- The filters after `KqueueCtrlDel`. -/
def deletedFilters (r : FdRecord) (filters events : KqEvents) : KqEvents :=
  if r.events = r.events \ events then filters else filters \ r.events ∪ r.events \ events

theorem kqFdRefGet_lt (h : fd < s.maxfd) : s.kqFdRefGet (some fd) = some fd := by
  simp [kqFdRefGet, Option.filter, h]

theorem kqFdRefGet_ge (h : s.maxfd ≤ fd) : s.kqFdRefGet (some fd) = none := by
  simp [kqFdRefGet, Option.filter, h]

theorem ctrlAdd_eq (h : fd < s.maxfd) (events : KqEvents) :
    s.kqueueCtrlAdd (some fd) events =
      ({ s with
          records := Function.update s.records fd (added (s.records fd) events)
          filters := Function.update s.filters fd (addedFilters (s.records fd) (s.filters fd) events) }, true) := by
  unfold kqueueCtrlAdd addedFilters added
  rw [kqFdRefGet_lt h]
  dsimp only [FdRecord.attachEvents]
  by_cases hsame : (s.records fd).events = (s.records fd).events ∪ events
  · rw [if_pos hsame, if_pos hsame, Function.update_eq_self, ← hsame]
    rfl
  · rw [if_neg hsame, if_neg hsame]
    rfl

theorem ctrlDel_eq (h : fd < s.maxfd) (events : KqEvents) :
    s.kqueueCtrlDel (some fd) events =
      ({ s with
          records := Function.update s.records fd (deleted (s.records fd) events)
          filters := Function.update s.filters fd (deletedFilters (s.records fd) (s.filters fd) events) }, true) := by
  unfold kqueueCtrlDel deletedFilters deleted
  rw [kqFdRefGet_lt h]
  dsimp only [FdRecord.detachEvents]
  by_cases hsame : (s.records fd).events = (s.records fd).events \ events
  · rw [if_pos hsame, if_pos hsame, Function.update_eq_self, ← hsame]
    rfl
  · rw [if_neg hsame, if_neg hsame]
    rfl

theorem ctrlAdd_ge (h : s.maxfd ≤ fd) (events : KqEvents) : s.kqueueCtrlAdd (some fd) events = (s, false) := by
  unfold kqueueCtrlAdd
  rw [kqFdRefGet_ge h]

theorem ctrlDel_ge (h : s.maxfd ≤ fd) (events : KqEvents) : s.kqueueCtrlDel (some fd) events = (s, false) := by
  unfold kqueueCtrlDel
  rw [kqFdRefGet_ge h]

theorem ntfyReg_eq (h : fd < s.maxfd) (obj : Option NtfyObj) :
    s.kqueueNtfyReg (some fd) obj = s.setRecord fd { s.records fd with kqobj := obj } := by
  unfold kqueueNtfyReg
  rw [kqFdRefGet_lt h]

theorem ntfyReg_ge (h : s.maxfd ≤ fd) (obj : Option NtfyObj) : s.kqueueNtfyReg (some fd) obj = s := by
  unfold kqueueNtfyReg
  rw [kqFdRefGet_ge h]

theorem ntfyReg_events (s : FdWorld) (osfd : Option ℕ) (obj : Option NtfyObj) (n : ℕ) :
    ((s.kqueueNtfyReg osfd obj).records n).events = (s.records n).events := by
  unfold kqueueNtfyReg
  split
  · rfl
  · rename_i fd _
    unfold setRecord
    dsimp only
    by_cases hn : n = fd
    · rw [hn, Function.update_self]
    · rw [Function.update_of_ne hn]

/-- On a record that is as it was at the start every filter is added. -/
theorem addedFilters_empty (filters events : KqEvents) : events ⊆ addedFilters {} filters events := by
  unfold addedFilters
  split
  case isTrue h =>
    intro dir hdir
    have hmem : dir ∈ (∅ : KqEvents) := by
      have := Finset.mem_union_right (∅ : KqEvents) hdir
      rwa [← h] at this
    exact absurd hmem (Finset.notMem_empty dir)
  case isFalse => exact Finset.subset_union_right

/-- `KqueueAddObj` on a record that is as it was at the start. -/
theorem addObj_eq (h : fd < s.maxfd) (hfree : s.records fd = {}) (obj : NtfyObj) (events : KqEvents) :
    s.kqueueAddObj obj (some fd) events =
      ({ s with
          records := Function.update s.records fd (added { kqobj := some obj } events)
          filters := Function.update s.filters fd (addedFilters {} (s.filters fd) events) }, true) := by
  unfold kqueueAddObj kqueueNtfyReg
  rw [kqFdRefGet_lt h]
  dsimp only
  rw [hfree, if_neg (by simp), ctrlAdd_eq (by exact h)]
  simp [setRecord, addedFilters]

/-- `KqueueAddObj` on a record with another object, or without a record. -/
theorem addObj_refused (h : s.maxfd ≤ fd ∨ ((s.records fd).kqobj ≠ none ∧ (s.records fd).kqobj ≠ some obj)) :
    s.kqueueAddObj obj (some fd) events = (s, false) := by
  unfold kqueueAddObj
  rcases lt_or_ge fd s.maxfd with hlt | hge
  · rw [kqFdRefGet_lt hlt]
    exact if_pos (h.resolve_left (by omega))
  · rw [kqFdRefGet_ge hge]

/-- `KqueueDelObj` by the object of the record. -/
theorem delObj_eq (h : fd < s.maxfd) (hobj : (s.records fd).kqobj = some obj) (events : KqEvents) :
    s.kqueueDelObj obj (some fd) events =
      ({ s with
          records := Function.update s.records fd (deleted { s.records fd with kqobj := none } events)
          filters := Function.update s.filters fd (deletedFilters (s.records fd) (s.filters fd) events) }, true) := by
  unfold kqueueDelObj kqueueNtfyReg
  rw [kqFdRefGet_lt h]
  dsimp only
  rw [if_neg (by simp [hobj]), ctrlDel_eq (by exact h)]
  simp [setRecord, deletedFilters]

/-! ## The invariant -/

/-- The connections: those in the lists are in the kqueue; those in the kqueue are in a list, are with no user and not
in the pool, and can be found by their destination; and a timer runs only for them. -/
structure IdleConns (conns : ℕ → TcpKeepConn) (total : ℕ) (pool : List ℕ)
    (keep_hash : ℕ × ℕ → Option (List ℕ)) (timers users : Finset ℕ) : Prop where
  linked : ∀ id, (conns id).in_list = (conns id).in_kqueue
  listed : ∀ key list id, keep_hash key = some list → id ∈ list → (conns id).in_kqueue = true
  idle : ∀ id, (conns id).in_kqueue = true → id ∉ users ∧ id ∉ pool ∧ id < total ∧
    (conns id).dst_addr.1 ≠ 0 ∧ (conns id).dst_addr.2 ≠ 0 ∧ keep_hash (conns id).dst_addr ≠ none
  timer : ∀ id ∈ timers, (conns id).in_kqueue = true
  user : ∀ id ∈ users, id ∉ pool ∧ id < total
  pooled : ∀ id ∈ pool, id < total
  pool_nodup : pool.Nodup

/-- A record without an object is as it was at the start; an object is one of the open socket; what an object holds in
its record is bounded by its mask; and no proxy waits to write. -/
structure Clean (s : FdWorld) : Prop where
  turns : ∀ r ∈ s.turns, r = {}
  free : ∀ fd, (s.records fd).kqobj = none → s.records fd = {}
  past : ∀ fd, s.maxfd ≤ fd → s.records fd = {}
  linkObj : ∀ fd id, (s.records fd).kqobj = some (.link id) → s.owner fd = some (.link id)
  keepObj : ∀ fd id, (s.records fd).kqobj = some (.keep id) →
    s.owner fd = some (.keep id) ∧ (s.conns id).in_kqueue = true ∧ (s.conns id).osfd = some fd
  sessionObj : ∀ fd id, (s.records fd).kqobj = some (.session id) → s.owner fd = some (.session id)
  callObj : ∀ fd id, (s.records fd).kqobj = some (.call id) →
    s.owner fd ≠ none ∧ ∃ events, s.calls id = some (fd, events)
  link : ∀ id fd, (s.links id).fd = some fd → s.owner fd = some (.link id) ∧
    (s.records fd).kqobj = some (.link id) ∧
    Bounded (s.records fd) (inMask .read (s.links id).events) (inMask .write (s.links id).events)
  conn : ∀ id fd, (s.conns id).osfd = some fd → s.owner fd = some (.keep id)
  attached : ∀ id, (s.conns id).in_kqueue = true → ∃ fd, (s.conns id).osfd = some fd ∧
    (s.records fd).kqobj = some (.keep id) ∧ Bounded (s.records fd) 1 0
  session : ∀ id fd, (s.sessions id).osfd = some fd → 0 < fd → s.owner fd = some (.session id) ∧
    (fd < s.maxfd → (s.records fd).kqobj = some (.session id) ∧ Bounded (s.records fd) 1 0)
  call : ∀ id fd events, s.calls id = some (fd, events) → (s.records fd).kqobj = some (.call id) ∧
    Bounded (s.records fd) (inMask .read events) (inMask .write events)
  nobody : ∀ id, (s.sessions id).write_list = []
  idle : IdleConns s.conns s.total s.pool s.keep_hash s.timers s.users

attribute [grind cases] IdleConns Clean

theorem Clean.lt (h : Clean s) (hobj : (s.records fd).kqobj = some obj) : fd < s.maxfd := by
  by_contra hge
  rw [h.past fd (by omega)] at hobj
  cases hobj

theorem Clean.records_of_closed (h : Clean s) (hfd : s.owner fd = none) : s.records fd = {} := by
  refine h.free fd ?_
  cases hobj : (s.records fd).kqobj with
  | none => rfl
  | some obj =>
    cases obj with
    | link id => exact absurd (h.linkObj fd id hobj) (by simp [hfd])
    | keep id => exact absurd (h.keepObj fd id hobj).1 (by simp [hfd])
    | session id => exact absurd (h.sessionObj fd id hobj) (by simp [hfd])
    | call id => exact absurd hfd (h.callObj fd id hobj).1

/-- `KqueueCtrlDel` only takes references away. -/
theorem Clean.delRecord (h : Clean s) (fd : ℕ) (events : KqEvents) (filters : ℕ → KqEvents) :
    Clean { s with
      records := Function.update s.records fd (deleted (s.records fd) events), filters := filters } := by
  have hobj : ∀ n, (Function.update s.records fd (deleted (s.records fd) events) n).kqobj =
      (s.records n).kqobj := by
    intro n
    by_cases hn : n = fd
    · rw [hn, Function.update_self, deleted_kqobj]
    · rw [Function.update_of_ne hn]
  have hbound : ∀ n k m, Bounded (s.records n) k m →
      Bounded (Function.update s.records fd (deleted (s.records fd) events) n) k m := by
    intro n k m hb
    by_cases hn : n = fd
    · subst hn
      rw [Function.update_self]
      exact hb.del_le events
    · rwa [Function.update_of_ne hn]
  have hempty : ∀ n, s.records n = {} →
      Function.update s.records fd (deleted (s.records fd) events) n = {} := by
    intro n hn
    refine (hbound n 0 0 (by rw [hn]; exact Bounded.empty none)).eq_empty ?_
    rw [hobj, hn]
  refine ⟨h.turns, fun n hn => hempty n (h.free n ((hobj n).symm.trans hn)), fun n hn => hempty n (h.past n hn),
    fun n id hn => h.linkObj n id ((hobj n).symm.trans hn), fun n id hn => h.keepObj n id ((hobj n).symm.trans hn),
    fun n id hn => h.sessionObj n id ((hobj n).symm.trans hn), fun n id hn => h.callObj n id ((hobj n).symm.trans hn),
    ?link, h.conn, ?attached, ?session, ?call, h.nobody, h.idle⟩
  case link =>
    intro id n hn
    obtain ⟨howner, hk, hb⟩ := h.link id n hn
    exact ⟨howner, (hobj n).trans hk, hbound _ _ _ hb⟩
  case attached =>
    intro id hid
    obtain ⟨n, hn, hk, hb⟩ := h.attached id hid
    exact ⟨n, hn, (hobj n).trans hk, hbound _ _ _ hb⟩
  case session =>
    intro id n hn hpos
    refine ⟨(h.session id n hn hpos).1, fun hlt => ?_⟩
    obtain ⟨hk, hb⟩ := (h.session id n hn hpos).2 hlt
    exact ⟨(hobj n).trans hk, hbound _ _ _ hb⟩
  case call =>
    intro id n ev hn
    obtain ⟨hk, hb⟩ := h.call id n ev hn
    exact ⟨(hobj n).trans hk, hbound _ _ _ hb⟩

/-- `KqueueCtrlDel` of any descriptor. -/
theorem Clean.ctrlDel (h : Clean s) (osfd : Option ℕ) (events : KqEvents) : Clean (s.kqueueCtrlDel osfd events).1 := by
  cases osfd with
  | none => exact h
  | some fd =>
    rcases lt_or_ge fd s.maxfd with hlt | hge
    · rw [ctrlDel_eq hlt]
      exact h.delRecord fd events _
    · rwa [ctrlDel_ge hge]

/-- A socket is made. -/
theorem Clean.opened (h : Clean s) (hfd : s.owner fd = none) (who : FdOwner) : Clean (s.opened fd who) := by
  have hrec := h.records_of_closed hfd
  unfold FdWorld.opened
  constructor <;> dsimp only <;> grind [Function.update_apply]

/-- A socket is closed to which nothing refers. -/
theorem Clean.close (h : Clean s) (hrec : s.records fd = {}) (hlink : ∀ id, (s.links id).fd ≠ some fd)
    (hconn : ∀ id, (s.conns id).osfd ≠ some fd) (hsession : ∀ id, (s.sessions id).osfd = some fd → fd = 0) :
    Clean (s.close fd) := by
  unfold FdWorld.close
  constructor <;> dsimp only <;> grind [Function.update_apply]

/-- The fields of a link are replaced. -/
theorem Clean.setLink (h : Clean s) (id : ℕ) {link : FdLink}
    (hlink : ∀ fd, link.fd = some fd → s.owner fd = some (.link id) ∧ (s.records fd).kqobj = some (.link id) ∧
      Bounded (s.records fd) (inMask .read link.events) (inMask .write link.events)) : Clean (s.setLink id link) := by
  unfold FdWorld.setLink
  constructor <;> dsimp only <;> grind [Function.update_apply]

/-- The fields of a session are replaced. -/
theorem Clean.setSession (h : Clean s) (id : ℕ) {ntfy : UdpNtfy} (hnobody : ntfy.write_list = [])
    (hntfy : ∀ fd, ntfy.osfd = some fd → 0 < fd → s.owner fd = some (.session id) ∧
      (fd < s.maxfd → (s.records fd).kqobj = some (.session id) ∧ Bounded (s.records fd) 1 0)) :
    Clean (s.setSession id ntfy) := by
  unfold FdWorld.setSession
  constructor <;> dsimp only <;> grind [Function.update_apply]

/-- An open link or session registers its new socket. -/
theorem Clean.register (h : Clean s) (hlt : fd < s.maxfd) (hfree : s.records fd = {})
    (hobj : (∃ id, r.kqobj = some (.link id) ∧ s.owner fd = some (.link id)) ∨
      ∃ id, r.kqobj = some (.session id) ∧ s.owner fd = some (.session id)) (filters : ℕ → KqEvents) :
    Clean { s with records := Function.update s.records fd r, filters := filters } := by
  constructor <;> dsimp only <;> grind [Function.update_apply]

/-- A record is cleared that nothing relies on. -/
theorem Clean.clear (h : Clean s) (filters : ℕ → KqEvents) (hlink : ∀ id, (s.links id).fd ≠ some fd)
    (hconn : ∀ id, (s.conns id).in_kqueue = true → (s.conns id).osfd ≠ some fd)
    (hsession : ∀ id, (s.sessions id).osfd = some fd → fd = 0) (hcall : ∀ id events, s.calls id ≠ some (fd, events)) :
    Clean { s with records := Function.update s.records fd {}, filters := filters } := by
  constructor <;> dsimp only <;> grind [Function.update_apply]

theorem Clean.closed (h : Clean s) (hrec : s.records fd = {}) (hlink : ∀ id, (s.links id).fd ≠ some fd)
    (hconn : ∀ id, (s.conns id).osfd ≠ some fd) (hsession : ∀ id, (s.sessions id).osfd = some fd → fd = 0) :
    Clean (s.closed fd) := by
  refine { h.close hrec hlink hconn hsession with turns := ?_ }
  intro r hr
  rcases List.mem_cons.mp hr with rfl | hr
  · exact hrec
  · exact h.turns r hr

/-! ## Sockets that are made -/

theorem socket_some (hfd : s.socket answer = some fd) : s.owner fd = none := by
  unfold FdWorld.socket at hfd
  simpa using (Option.filter_eq_some_iff.mp hfd).2

theorem Clean.not_link (h : Clean s) (hfd : s.owner fd = none) (id : ℕ) : (s.links id).fd ≠ some fd := by
  intro hlink
  have := (h.link id fd hlink).1
  simp [hfd] at this

theorem Clean.not_conn (h : Clean s) (hfd : s.owner fd = none) (id : ℕ) : (s.conns id).osfd ≠ some fd := by
  intro hconn
  have := h.conn id fd hconn
  simp [hfd] at this

theorem Clean.not_session (h : Clean s) (hfd : s.owner fd = none) (id : ℕ)
    (hsession : (s.sessions id).osfd = some fd) : fd = 0 := by
  by_contra hne
  have := (h.session id fd hsession (Nat.pos_of_ne_zero hne)).1
  simp [hfd] at this

/-- A socket that cannot be set up is closed at once. -/
theorem Clean.openedClosed (h : Clean s) (hfd : s.owner fd = none) (who : FdOwner) :
    Clean ((s.opened fd who).closed fd) :=
  (h.opened hfd who).closed (h.records_of_closed hfd) (h.not_link hfd) (h.not_conn hfd) (h.not_session hfd)

/-- The object has its filters in the kqueue, and is notified. -/
def Delivered (s : FdWorld) (obj : NtfyObj) (fd : ℕ) (events : KqEvents) : Prop :=
  events ⊆ s.filters fd ∧ (s.records fd).kqobj = some obj

instance (s : FdWorld) (obj : NtfyObj) (fd : ℕ) (events : KqEvents) : Decidable (Delivered s obj fd events) := by
  unfold Delivered
  infer_instance

/-- A link that gets a socket. -/
theorem linkCreate_eq (h : Clean s) (udp : Bool) (hhas : ¬ (s.links id).fd.any (0 < ·))
    (hfd : s.socket answer = some fd) (hlt : fd < s.maxfd) :
    ∃ events, s.linkCreate id udp answer true =
      { s.opened fd (.link id) with
        records := Function.update s.records fd (added { kqobj := some (.link id) } events)
        filters := Function.update s.filters fd (addedFilters {} (s.filters fd) events) }.setLink id
        ⟨some fd, events⟩ := by
  unfold FdWorld.linkCreate
  rw [if_neg hhas, hfd]
  dsimp only
  rw [if_pos rfl, addObj_eq (s := s.opened fd (.link id)) hlt (h.records_of_closed (socket_some hfd))]
  exact ⟨_, rfl⟩

theorem Clean.linkCreate (h : Clean s) (id : ℕ) (udp : Bool) (answer : Option ℕ) (ready : Bool) :
    Clean (s.linkCreate id udp answer ready) := by
  by_cases hhas : (s.links id).fd.any (0 < ·)
  · unfold FdWorld.linkCreate
    rwa [if_pos hhas]
  cases hfd : s.socket answer with
  | none =>
    unfold FdWorld.linkCreate
    rw [if_neg hhas, hfd]
    exact h.setLink id nofun
  | some fd =>
    have hnone := socket_some hfd
    have hopen := h.opened hnone (.link id)
    cases ready with
    | false =>
      unfold FdWorld.linkCreate
      rw [if_neg hhas, hfd]
      exact (h.openedClosed hnone _).setLink id nofun
    | true =>
      rcases lt_or_ge fd s.maxfd with hlt | hge
      · obtain ⟨events, heq⟩ := linkCreate_eq h udp hhas hfd hlt
        rw [heq]
        refine Clean.setLink (hopen.register hlt (h.records_of_closed hnone)
          (.inl ⟨id, rfl, Function.update_self ..⟩) _) id ?_
        rintro n ⟨⟩
        refine ⟨Function.update_self .., ?_, ?_⟩
        · dsimp only
          rw [Function.update_self]
          rfl
        · dsimp only
          rw [Function.update_self]
          simpa using (Bounded.empty (some (NtfyObj.link id))).add events
      · unfold FdWorld.linkCreate
        rw [if_neg hhas, hfd]
        dsimp only
        rw [if_pos rfl, addObj_refused (s := s.opened fd (.link id)) (.inl hge)]
        exact (h.openedClosed hnone _).setLink id nofun

theorem linkCreate_delivered (h : Clean s) (udp : Bool) (hhas : ¬ (s.links id).fd.any (0 < ·))
    (hfd : s.socket answer = some fd) (hlt : fd < s.maxfd) :
    ((s.linkCreate id udp answer true).links id).fd = some fd ∧
      Delivered (s.linkCreate id udp answer true) (.link id) fd ((s.linkCreate id udp answer true).links id).events := by
  obtain ⟨events, heq⟩ := linkCreate_eq h udp hhas hfd hlt
  rw [heq]
  unfold FdWorld.setLink Delivered
  dsimp only
  rw [Function.update_self, Function.update_self, Function.update_self]
  exact ⟨rfl, addedFilters_empty _ events, rfl⟩

/-! ## Links -/

/-- The object of a record leaves it, and nothing is left. -/
theorem delObj_clean (h : fd < s.maxfd) (hobj : (s.records fd).kqobj = some obj)
    (hb : Bounded (s.records fd) (inMask .read events) (inMask .write events)) :
    s.kqueueDelObj obj (some fd) events =
      ({ s with
          records := Function.update s.records fd {}
          filters := Function.update s.filters fd (deletedFilters (s.records fd) (s.filters fd) events) }, true) := by
  rw [delObj_eq h hobj]
  have hempty : deleted { s.records fd with kqobj := none } events = {} := by
    refine Bounded.eq_empty ?_ rfl
    simpa using (hb.setObj none).del events
  rw [hempty]

theorem setLink_ctrlDel (s : FdWorld) (id : ℕ) (link : FdLink) (osfd : Option ℕ) (events : KqEvents) :
    ((s.setLink id link).kqueueCtrlDel osfd events).1 = (s.kqueueCtrlDel osfd events).1.setLink id link := by
  cases osfd with
  | none => rfl
  | some fd =>
    rcases lt_or_ge fd s.maxfd with hlt | hge
    · rw [ctrlDel_eq hlt, ctrlDel_eq (s := s.setLink id link) hlt]
      rfl
    · rw [ctrlDel_ge hge, ctrlDel_ge (s := s.setLink id link) hge]

/-- A link does not listen for write readiness any longer. -/
theorem Clean.quiet (h : Clean s) (id : ℕ) :
    Clean ((s.setLink id { s.links id with events := (s.links id).events.erase .write }).kqueueCtrlDel
      (s.links id).fd {.write}).1 := by
  rw [setLink_ctrlDel]
  refine (h.ctrlDel _ _).setLink id ?_
  intro fd hfd
  obtain ⟨howner, hobj, hb⟩ := h.link id fd hfd
  rw [show (s.links id).fd = some fd from hfd, ctrlDel_eq (h.lt hobj)]
  refine ⟨howner, ?_, ?_⟩
  · dsimp only
    rw [Function.update_self]
    exact hobj
  · dsimp only
    rw [Function.update_self]
    refine (hb.del {.write}).mono ?_ ?_
    · simp [inMask]
    · simp only [inMask]
      split <;> simp

theorem Clean.linkDestroy (h : Clean s) (id : ℕ) : Clean (s.linkDestroy id) := by
  unfold FdWorld.linkDestroy
  split
  case h_1 => exact h.setLink id nofun
  case h_2 fd hfd =>
    obtain ⟨howner, hobj, hb⟩ := h.link id fd hfd
    rw [delObj_clean (h.lt hobj) hobj hb]
    -- the link forgets its descriptor, then the record is cleared, and then the descriptor is closed
    have hnone : Clean (s.setLink id {}) := h.setLink id nofun
    have hlink : ∀ n, ((s.setLink id {}).links n).fd ≠ some fd := by
      intro n hn
      have hown := (hnone.link n fd hn).1
      obtain rfl : id = n := by
        rw [show (s.setLink id {}).owner fd = some (.link id) from howner] at hown
        simpa using hown
      simp [FdWorld.setLink] at hn
    have hsession : ∀ n, ((s.setLink id {}).sessions n).osfd = some fd → fd = 0 := by
      intro n hn
      by_contra hne
      have hown := (h.session n fd hn (Nat.pos_of_ne_zero hne)).1
      simp [howner] at hown
    have hconn : ∀ n, ((s.setLink id {}).conns n).osfd ≠ some fd := by
      intro n hn
      have hown := h.conn n fd hn
      simp [howner] at hown
    have hcall : ∀ n events, (s.setLink id {}).calls n ≠ some (fd, events) := by
      intro n events hn
      have hk := (h.call n fd events hn).1
      simp [hobj] at hk
    exact (hnone.clear _ hlink (fun n _ => hconn n) hsession hcall).closed (Function.update_self ..) hlink hconn hsession

theorem Clean.linkOutput (h : Clean s) (id : ℕ) (fails drained : Bool) : Clean (s.linkOutput id fails drained) := by
  unfold FdWorld.linkOutput
  cases fails with
  | true => exact h.linkDestroy id
  | false =>
    cases drained with
    | true => exact h.quiet id
    | false => exact h

theorem Clean.linkSend (h : Clean s) (id : ℕ) : Clean (s.linkSend id true) := h.quiet id

/-! ## Calls that wait -/

/-- `KqueueAddObj` in a state that is clean: the object is added to a record that is as it was at the
start, or refused. -/
theorem Clean.addObj_cases (h : Clean s) (obj : NtfyObj) (hobj : (s.records fd).kqobj ≠ some obj) (events : KqEvents) :
    s.kqueueAddObj obj (some fd) events = (s, false) ∨
      fd < s.maxfd ∧ s.records fd = {} ∧ s.kqueueAddObj obj (some fd) events =
        ({ s with
            records := Function.update s.records fd (added { kqobj := some obj } events)
            filters := Function.update s.filters fd (addedFilters {} (s.filters fd) events) }, true) := by
  rcases lt_or_ge fd s.maxfd with hlt | hge
  · by_cases hfree : (s.records fd).kqobj = none
    · have hrec := h.free fd hfree
      exact .inr ⟨hlt, hrec, addObj_eq hlt hrec obj events⟩
    · exact .inl (addObj_refused (.inr ⟨hfree, hobj⟩))
  · exact .inl (addObj_refused (.inl hge))

/-- A call that waits. -/
theorem Clean.wait_cases (h : Clean s) (id fd : ℕ) (events : KqEvents) :
    s.wait id fd events = s ∨
      s.calls id = none ∧ s.owner fd ≠ none ∧ fd < s.maxfd ∧ s.records fd = {} ∧ s.wait id fd events =
        { s with
          records := Function.update s.records fd (added { kqobj := some (.call id) } events)
          filters := Function.update s.filters fd (addedFilters {} (s.filters fd) events)
          calls := Function.update s.calls id (some (fd, events)) } := by
  unfold FdWorld.wait
  by_cases hidle : s.calls id ≠ none ∨ s.owner fd = none
  · exact .inl (if_pos hidle)
  · rw [if_neg hidle]
    rw [not_or, not_not] at hidle
    have hobj : (s.records fd).kqobj ≠ some (.call id) := by
      intro hobj
      obtain ⟨-, ev, hcall⟩ := h.callObj fd id hobj
      simp [hidle.1] at hcall
    rcases h.addObj_cases (.call id) hobj events with heq | ⟨hlt, hrec, heq⟩
    · rw [heq]
      exact .inl rfl
    · rw [heq]
      exact .inr ⟨hidle.1, hidle.2, hlt, hrec, rfl⟩

theorem Clean.wait (h : Clean s) (id fd : ℕ) (events : KqEvents) : Clean (s.wait id fd events) := by
  rcases h.wait_cases id fd events with heq | ⟨hidle, howner, hlt, hrec, heq⟩
  · rwa [heq]
  · rw [heq]
    have hb : Bounded (added { kqobj := some (.call id) } events) (inMask .read events) (inMask .write events) := by
      simpa using (Bounded.empty (some (NtfyObj.call id))).add events
    have hobj : (added { kqobj := some (.call id) } events).kqobj = some (.call id) := rfl
    generalize added { kqobj := some (.call id) } events = r at hb hobj
    constructor <;> dsimp only <;> grind [Function.update_apply]

theorem wait_delivered (h : Clean s) (hidle : s.calls id = none)
    (hwait : (s.wait id fd events).calls id = some (fd, events)) :
    Delivered (s.wait id fd events) (.call id) fd events := by
  rcases h.wait_cases id fd events with heq | ⟨-, -, -, -, heq⟩
  · rw [heq, hidle] at hwait
    cases hwait
  · rw [heq]
    unfold Delivered
    dsimp only
    rw [Function.update_self, Function.update_self]
    exact ⟨addedFilters_empty _ events, rfl⟩

theorem Clean.wake (h : Clean s) (id : ℕ) : Clean (s.wake id) := by
  unfold FdWorld.wake
  split
  case h_1 => exact h
  case h_2 fd events hcall =>
    obtain ⟨hobj, hb⟩ := h.call id fd events hcall
    rw [delObj_clean (h.lt hobj) hobj hb]
    constructor <;> dsimp only <;> grind [Function.update_apply]

theorem Clean.callHangup (h : Clean s) (id : ℕ) : Clean (s.callHangup id) := by
  unfold FdWorld.callHangup
  split
  case h_1 => exact h
  case h_2 fd events _ => exact h.ctrlDel (some fd) events

/-! ## Sessions -/

/-- `CreateSocket` of a session that gets a socket with a record. -/
theorem sessionSocket_eq (h : Clean s) (id : ℕ) (hfd : s.socket answer = some fd) (hlt : fd < s.maxfd) :
    s.sessionSocket id answer true =
      FdWorld.setSession { s.opened fd (.session id) with
        records := Function.update s.records fd (added { kqobj := some (.session id) } {.read})
        filters := Function.update s.filters fd (addedFilters {} (s.filters fd) {.read}) } id
        { s.sessions id with osfd := some fd, events := insert .read (s.sessions id).events } := by
  have hrec := h.records_of_closed (socket_some hfd)
  unfold FdWorld.sessionSocket
  rw [hfd]
  dsimp only
  rw [if_pos rfl, ntfyReg_eq (by exact hlt), ctrlAdd_eq (by exact hlt)]
  simp [FdWorld.setSession, FdWorld.setRecord, FdWorld.opened, hrec, addedFilters]

theorem Clean.sessionSocket (h : Clean s) (id : ℕ) (answer : Option ℕ) (ready : Bool) :
    Clean (s.sessionSocket id answer ready) := by
  cases hfd : s.socket answer with
  | none =>
    unfold FdWorld.sessionSocket
    rwa [hfd]
  | some fd =>
    have hnone := socket_some hfd
    have hopen := h.opened hnone (.session id)
    cases ready with
    | false =>
      unfold FdWorld.sessionSocket
      rw [hfd]
      exact h.openedClosed hnone _
    | true =>
      rcases lt_or_ge fd s.maxfd with hlt | hge
      · rw [sessionSocket_eq h id hfd hlt]
        refine Clean.setSession (hopen.register hlt (h.records_of_closed hnone)
          (.inr ⟨id, rfl, Function.update_self ..⟩) _) id (h.nobody id) ?_
        rintro n ⟨⟩ -
        refine ⟨Function.update_self .., fun _ => ⟨?_, ?_⟩⟩
        · dsimp only
          rw [Function.update_self]
          rfl
        · dsimp only
          rw [Function.update_self]
          have hb := (Bounded.empty (some (NtfyObj.session id))).add {.read}
          exact hb.mono (by simp [inMask]) (by simp [inMask])
      · unfold FdWorld.sessionSocket
        rw [hfd]
        dsimp only
        rw [if_pos rfl, ntfyReg_ge (by exact hge), ctrlAdd_ge (by exact hge)]
        refine hopen.setSession id (h.nobody id) ?_
        rintro n ⟨⟩ -
        exact ⟨Function.update_self .., fun hlt => absurd hlt (not_lt.mpr hge)⟩

theorem sessionSocket_delivered (h : Clean s) (id : ℕ) (hfd : s.socket answer = some fd) (hlt : fd < s.maxfd) :
    Delivered (s.sessionSocket id answer true) (.session id) fd {.read} := by
  rw [sessionSocket_eq h id hfd hlt]
  unfold Delivered FdWorld.setSession
  dsimp only
  rw [Function.update_self, Function.update_self]
  exact ⟨addedFilters_empty _ _, rfl⟩

theorem Clean.sessionCreate (h : Clean s) (id : ℕ) (answer : Option ℕ) (ready : Bool) :
    Clean (s.sessionCreate id answer ready) := by
  unfold FdWorld.sessionCreate
  split
  · exact h
  · exact h.sessionSocket id answer ready

theorem Clean.sessionClose (h : Clean s) (id : ℕ) : Clean (s.sessionClose id) := by
  unfold FdWorld.sessionClose
  split
  case h_1 => exact h
  case h_2 fd hfd =>
    by_cases hpos : 0 < fd
    · rw [if_pos hpos]
      dsimp only
      obtain ⟨howner, hrec⟩ := h.session id fd hfd hpos
      have hlink : ∀ n, (s.links n).fd ≠ some fd := by
        intro n hn
        have := (h.link n fd hn).1
        simp [howner] at this
      have hconn : ∀ n, (s.conns n).osfd ≠ some fd := by
        intro n hn
        have := h.conn n fd hn
        simp [howner] at this
      have hnew : ∀ ntfy : UdpNtfy, ntfy.osfd = none → ∀ n, ((s.setSession id ntfy).sessions n).osfd = some fd →
          fd = 0 := by
        intro ntfy hntfy n hn
        dsimp only [FdWorld.setSession] at hn
        by_contra hne
        by_cases hid : n = id
        · subst hid
          rw [Function.update_self, hntfy] at hn
          cases hn
        · rw [Function.update_of_ne hid] at hn
          have hown := (h.session n fd hn hpos).1
          rw [howner] at hown
          exact hid (by simpa using hown.symm)
      have hset := @Clean.setSession s h id
        { s.sessions id with osfd := none, events := (s.sessions id).events.erase .read } (h.nobody id) nofun
      rcases lt_or_ge fd s.maxfd with hlt | hge
      · obtain ⟨hobj, hb⟩ := hrec hlt
        have hcall : ∀ n events, s.calls n ≠ some (fd, events) := by
          intro n events hn
          have hk := (h.call n fd events hn).1
          simp [hobj] at hk
        have hempty : { deleted (s.records fd) {.read} with kqobj := none } = ({} : FdRecord) := by
          refine Bounded.eq_empty (Bounded.setObj ?_ none) rfl
          simpa [inMask] using hb.del {.read}
        rw [ctrlDel_eq hlt, ntfyReg_eq (by exact hlt)]
        dsimp only [FdWorld.setRecord]
        rw [Function.update_self, Function.update_idem, hempty]
        exact (hset.clear _ hlink (fun n _ => hconn n) (hnew _ rfl) hcall).closed (Function.update_self ..) hlink hconn
          (hnew _ rfl)
      · rw [ctrlDel_ge hge, ntfyReg_ge hge]
        exact hset.closed (h.past fd hge) hlink hconn (hnew _ rfl)
    · rwa [if_neg hpos]

theorem Clean.sessionHangup (h : Clean s) (id : ℕ) (answer : Option ℕ) (ready : Bool) :
    Clean (s.sessionHangup id answer ready) :=
  ((h.ctrlDel _ _).sessionClose id).sessionSocket id answer ready

theorem ctrlDel_maxfd (s : FdWorld) (osfd : Option ℕ) (events : KqEvents) :
    (s.kqueueCtrlDel osfd events).1.maxfd = s.maxfd := by
  cases osfd with
  | none => rfl
  | some fd =>
    rcases lt_or_ge fd s.maxfd with hlt | hge
    · rw [ctrlDel_eq hlt]
    · rw [ctrlDel_ge hge]

theorem sessionClose_maxfd (s : FdWorld) (id : ℕ) : (s.sessionClose id).maxfd = s.maxfd := by
  unfold FdWorld.sessionClose
  split
  case h_1 => rfl
  case h_2 fd _ =>
    split
    case isTrue =>
      rcases lt_or_ge fd s.maxfd with hlt | hge
      · rw [ctrlDel_eq hlt, ntfyReg_eq (by exact hlt)]
        rfl
      · rw [ctrlDel_ge hge, ntfyReg_ge hge]
        rfl
    case isFalse => rfl

/-- A proxy cannot wait to write: the descriptor of the session has no record, or its own has none, or one with another
object. -/
def Refused (s : FdWorld) (id : ℕ) (osfd : Option ℕ) : Prop :=
  s.kqFdRefGet (s.sessions id).osfd = none ∨
    ∀ n ∈ s.kqFdRefGet osfd, (s.records n).kqobj ≠ none ∧ (s.records n).kqobj ≠ some (.session id)

instance (s : FdWorld) (id : ℕ) (osfd : Option ℕ) : Decidable (Refused s id osfd) := by
  unfold Refused
  infer_instance

theorem writeWait_refused {osfd : Option ℕ} (h : Refused s id osfd) (proxy : ℕ) :
    s.writeWait proxy id osfd = s := by
  unfold FdWorld.writeWait
  dsimp only
  split
  · rfl
  · split
    case h_1 => rfl
    case h_2 n hget =>
      rcases h with hnone | hother
      · unfold FdWorld.kqueueCtrlAdd
        rw [hnone]
        simp
      · exact if_pos (hother n hget)

theorem Clean.writeWake_eq (h : Clean s) (proxy id : ℕ) : s.writeWake proxy id = s := by
  unfold FdWorld.writeWake
  dsimp only
  rw [h.nobody id]
  rfl

/-! ## The filters of open descriptors -/

/-- What an open descriptor is registered for is in the kqueue. -/
def Listening (s : FdWorld) : Prop := ∀ fd, s.owner fd ≠ none → (s.records fd).events ⊆ s.filters fd

theorem Listening.opened (hl : Listening s) (hrec : s.records fd = {}) (who : FdOwner) :
    Listening (s.opened fd who) := by
  intro n hn
  by_cases heq : n = fd
  · subst heq
    show (s.records n).events ⊆ s.filters n
    rw [hrec]
    exact Finset.empty_subset _
  · refine hl n ?_
    unfold FdWorld.opened at hn
    dsimp only at hn
    rwa [Function.update_of_ne heq] at hn

theorem Listening.close (hl : Listening s) (fd : ℕ) : Listening (s.close fd) := by
  intro n hn
  unfold FdWorld.close at hn ⊢
  dsimp only at hn ⊢
  by_cases heq : n = fd
  · rw [heq, Function.update_self] at hn
    exact absurd rfl hn
  · rw [Function.update_of_ne heq] at hn ⊢
    exact hl n hn

theorem Listening.closed (hl : Listening s) (fd : ℕ) : Listening (s.closed fd) := hl.close fd

/-- The record and the filters of one descriptor have changed. -/
theorem Listening.update (hl : Listening s) {filters : KqEvents}
    (h : (s.records fd).events ⊆ s.filters fd → r.events ⊆ filters) :
    Listening { s with
      records := Function.update s.records fd r, filters := Function.update s.filters fd filters } := by
  intro n hn
  dsimp only at hn ⊢
  by_cases heq : n = fd
  · subst heq
    rw [Function.update_self, Function.update_self]
    exact h (hl n hn)
  · rw [Function.update_of_ne heq, Function.update_of_ne heq]
    exact hl n hn

theorem Listening.ntfyReg (hl : Listening s) (osfd : Option ℕ) (obj : Option NtfyObj) :
    Listening (s.kqueueNtfyReg osfd obj) := by
  unfold FdWorld.kqueueNtfyReg
  split
  · exact hl
  · rename_i fd _
    have hset := @Listening.update s fd { s.records fd with kqobj := obj } hl (s.filters fd) id
    rwa [Function.update_eq_self] at hset

/-- What is left is registered anew. -/
theorem Listening.ctrlDel (hl : Listening s) (osfd : Option ℕ) (events : KqEvents) :
    Listening (s.kqueueCtrlDel osfd events).1 := by
  cases osfd with
  | none => exact hl
  | some fd =>
    rcases lt_or_ge fd s.maxfd with hlt | hge
    · rw [ctrlDel_eq hlt]
      refine hl.update fun hsub => ?_
      unfold deletedFilters
      split
      · exact Finset.sdiff_subset.trans hsub
      · exact Finset.subset_union_right
    · rwa [ctrlDel_ge hge]

/-- On a record without events all that is asked for is registered. -/
theorem Listening.ctrlAdd (hl : Listening s) (hempty : (s.records fd).events = ∅) (events : KqEvents) :
    Listening (s.kqueueCtrlAdd (some fd) events).1 := by
  rcases lt_or_ge fd s.maxfd with hlt | hge
  · rw [ctrlAdd_eq hlt]
    refine hl.update fun hsub => ?_
    unfold added addedFilters
    dsimp only
    split
    · rename_i hsame
      rwa [← hsame]
    · rw [hempty, Finset.empty_union]
      exact Finset.subset_union_right
  · rwa [ctrlAdd_ge hge]

theorem Listening.addObj (hl : Listening s)
    (hfree : (s.records fd).kqobj = none ∨ (s.records fd).kqobj = some obj → (s.records fd).events = ∅)
    (events : KqEvents) : Listening (s.kqueueAddObj obj (some fd) events).1 := by
  by_cases hrefused : s.maxfd ≤ fd ∨ ((s.records fd).kqobj ≠ none ∧ (s.records fd).kqobj ≠ some obj)
  · rwa [addObj_refused hrefused]
  · obtain ⟨hlt, hobj⟩ := not_or.mp hrefused
    have hempty := hfree (by tauto)
    unfold FdWorld.kqueueAddObj
    rw [kqFdRefGet_lt (not_le.mp hlt)]
    dsimp only
    rw [if_neg hobj]
    exact (hl.ntfyReg (some fd) (some obj)).ctrlAdd ((ntfyReg_events s (some fd) (some obj) fd).trans hempty) events

theorem Listening.delObj (hl : Listening s) (obj : NtfyObj) (osfd : Option ℕ) (events : KqEvents) :
    Listening (s.kqueueDelObj obj osfd events).1 := by
  unfold FdWorld.kqueueDelObj
  split
  · exact hl
  · split
    · exact hl
    · exact (hl.ntfyReg osfd none).ctrlDel osfd events

end FStack.Analysis
