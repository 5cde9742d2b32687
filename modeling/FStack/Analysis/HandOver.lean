import FStack.Model.WorkerHandOver
import FStack.Analysis.SoContexts

/-!
# Which worker gets which context

A parent counts the contexts it makes by `worker_id`, and those it hands over by `current_worker_id`; the zone
of a context is `worker_id % nb_procs`, and a worker looks for its zone under `current_worker_id`.  The counters
agree if the first starts at 0 and there are not more workers than instances.
-/

set_option autoImplicit false

namespace FStack.Analysis

open FStack.Model FStack.Prelude

variable {turns k : ℕ} {i j : ℤ} {as : List WorkerStep}

/-! ## Sockets -/

section Sockets

variable {p : AppProc} {nb_procs w : ℤ} {m : SocketMaster}

/-- A process knows zones under their numbers. -/
def TableOwn (p : AppProc) : Prop := ∀ i z, p.ff_so_zones i = some z → z = i

/-- INTERNAL: an attach in the `FF_MULTI_SC` build. -/
theorem ffAttachSoContext_multi (zones : SoZones) (h : TableOwn p) (idx : ℤ) :
    let r := zones.ffAttachSoContext true p idx
    TableOwn r.2.1 ∧ (∀ i z, p.ff_so_zones i = some z → r.2.1.ff_so_zones i = some z) ∧
      r.2.1.scs = p.scs ∧ r.2.1.worker_id = p.worker_id ∧ r.2.1.current_worker_id = p.current_worker_id ∧
      ∀ sc, r.2.2 = some sc → sc.zone = idx ∧ r.2.1.ff_so_zones idx = some idx := by
  have hfind : TableOwn (zones.findZone true p idx) ∧
      (∀ i z, p.ff_so_zones i = some z → (zones.findZone true p idx).ff_so_zones i = some z) ∧
      (zones.findZone true p idx).scs = p.scs ∧ (zones.findZone true p idx).worker_id = p.worker_id ∧
      (zones.findZone true p idx).current_worker_id = p.current_worker_id ∧
      ∀ z, (zones.findZone true p idx).ff_so_zone = some z →
        z = idx ∧ (zones.findZone true p idx).ff_so_zones idx = some idx := by
    unfold SoZones.findZone
    dsimp only
    rw [if_pos rfl]
    dsimp only
    cases hentry : p.ff_so_zones idx with
    | some z =>
      refine ⟨h, fun i z hz => hz, rfl, rfl, rfl, ?_⟩
      intro z' hz'
      cases hz'
      obtain rfl := h idx z hentry
      exact ⟨rfl, hentry⟩
    | none =>
      dsimp only
      split
      · refine ⟨?_, ?_, rfl, rfl, rfl, ?_⟩
        · intro i z hz
          rw [if_pos rfl] at hz
          dsimp only at hz
          by_cases hi : i = idx
          · subst hi
            rw [Function.update_self] at hz
            exact (Option.some.inj hz).symm
          · rw [Function.update_of_ne hi] at hz
            exact h i z hz
        · intro i z hz
          rw [if_pos rfl]
          dsimp only
          by_cases hi : i = idx
          · rw [hi, hentry] at hz
            cases hz
          · rw [Function.update_of_ne hi]
            exact hz
        · intro z hz
          rw [if_pos rfl]
          dsimp only
          rw [Function.update_self]
          exact ⟨(Option.some.inj hz).symm, rfl⟩
      · exact ⟨h, fun i z hz => hz, rfl, rfl, rfl, fun z hz => by cases hz⟩
  obtain ⟨hown, hmono, hscs, hw, hc, hz⟩ := hfind
  unfold SoZones.ffAttachSoContext
  dsimp only
  cases hzone : (zones.findZone true p idx).ff_so_zone with
  | none => exact ⟨hown, hmono, hscs, hw, hc, fun sc hsc => by cases hsc⟩
  | some z =>
    obtain ⟨rfl, hidx⟩ := hz z hzone
    dsimp only
    cases (zones.zone z).attach with
    | none => exact ⟨hown, hmono, hscs, hw, hc, fun sc hsc => by cases hsc⟩
    | some r =>
      refine ⟨hown, hmono, hscs, hw, hc, ?_⟩
      intro sc hsc
      cases hsc
      exact ⟨rfl, hidx⟩

/-- What a parent knows after its sockets: the contexts stand in `scs` in their order, from the first
`worker_id` on, and each is in the zone that `nb_procs` gives. -/
structure SocketsSettled (w nb_procs : ℤ) (m : SocketMaster) : Prop where
  own : TableOwn m.parent
  worker : m.parent.worker_id = w + m.created.length
  current : m.parent.current_worker_id = 0
  entry : ∀ k : ℕ, ∀ c, m.created[k]? = some c → m.parent.scs (w + k) = ⟨c.2, some c.1⟩ ∧
    c.1.zone = (w + k).tmod nb_procs ∧ m.parent.ff_so_zones c.1.zone = some c.1.zone
  others : ∀ i, i < w → m.parent.scs i = {}
  fds : ∀ c ∈ m.created, 0 ≤ c.2

theorem SocketsSettled.init (zones : SoZones) (w nb_procs : ℤ) :
    SocketsSettled w nb_procs (SocketMaster.init zones w) := by
  refine ⟨?_, ?_, rfl, ?_, ?_, ?_⟩
  · intro i z hz
    cases hz
  · simp [SocketMaster.init]
  · intro k c hc
    simp [SocketMaster.init] at hc
  · intro i _
    rfl
  · intro c hc
    cases hc

/-- INTERNAL: a socket that was made. -/
theorem SocketsSettled.socket (h : SocketsSettled w nb_procs m) {ret : ℤ} (hret : 0 ≤ ret)
    (hmade : (m.socket nb_procs ret).created.length = m.created.length + 1) :
    SocketsSettled w nb_procs (m.socket nb_procs ret) := by
  unfold SocketMaster.socket AppProc.ffHookSocket at hmade ⊢
  by_cases hnb : nb_procs = 0
  · rw [if_pos hnb] at hmade
    simp at hmade
  · rw [if_neg hnb] at hmade ⊢
    obtain ⟨hown, hmono, hscs, hw, hc, hzone⟩ :=
      ffAttachSoContext_multi m.zones h.own (m.parent.nextZone nb_procs)
    unfold AppProc.ffAdapterInit at hmade ⊢
    generalize m.zones.ffAttachSoContext true m.parent (m.parent.nextZone nb_procs) = r at *
    obtain ⟨zones, p, sc⟩ := r
    dsimp only at hown hmono hscs hw hc hzone
    cases sc with
    | none => simp at hmade
    | some sc =>
      obtain ⟨hz, hidx⟩ := hzone sc rfl
      have hnext : m.parent.nextZone nb_procs = (w + m.created.length).tmod nb_procs := by
        unfold AppProc.nextZone
        rw [h.worker]
      rw [hnext] at hz hidx
      have hwid : p.worker_id = w + m.created.length := hw.trans h.worker
      dsimp only
      rw [if_pos rfl, hwid, hscs, Int.add_sub_cancel, Function.update_self]
      dsimp only
      rw [Function.update_idem]
      refine ⟨hown, ?_, hc.trans h.current, ?_, ?_, ?_⟩
      · simp [Int.add_assoc]
      · intro k c hk
        dsimp only at hk ⊢
        rw [Option.map_some, Option.toList_some] at hk
        rcases Nat.lt_trichotomy k m.created.length with hlt | heq | hgt
        · rw [List.getElem?_append_left hlt] at hk
          obtain ⟨hs, hcz, ht⟩ := h.entry k c hk
          rw [Function.update_of_ne (by omega)]
          exact ⟨hs, hcz, hmono _ _ ht⟩
        · rw [List.getElem?_append_right (by omega), heq, Nat.sub_self] at hk
          cases hk
          rw [heq, Function.update_self]
          refine ⟨rfl, hz, ?_⟩
          rw [hz]
          exact hidx
        · rw [List.getElem?_eq_none (by simp; omega)] at hk
          cases hk
      · intro i hi
        dsimp only
        rw [Function.update_of_ne (by omega)]
        exact h.others i hi
      · intro c hcmem
        rcases List.mem_append.mp hcmem with hcmem | hcmem
        · exact h.fds c hcmem
        · rw [Option.map_some, Option.toList_some, List.mem_singleton] at hcmem
          rw [hcmem]
          exact hret

theorem socket_created_le (m : SocketMaster) (nb_procs ret : ℤ) :
    (m.socket nb_procs ret).created.length ≤ m.created.length + 1 := by
  unfold SocketMaster.socket
  dsimp only
  rw [List.length_append]
  generalize Option.map _ _ = o
  cases o with
  | none => simp
  | some c => simp

theorem sockets_created_le (nb_procs : ℤ) (rets : List ℤ) :
    (rets.foldl (SocketMaster.socket nb_procs) m).created.length ≤ m.created.length + rets.length := by
  induction rets generalizing m with
  | nil => simp
  | cons ret rets ih =>
    have hone := socket_created_le m nb_procs ret
    have hmore := ih (m := m.socket nb_procs ret)
    rw [List.foldl_cons, List.length_cons]
    omega

/-- The entries that the sockets use are within the tables. -/
def SocketUsesIn (nb_procs : ℤ) (m : SocketMaster) (_ret : ℤ) : Prop :=
  ∀ i ∈ m.parent.socketUses nb_procs, InScTable i

/-- **Sockets that are all made**, from any number of contexts on. -/
theorem SocketsSettled.sockets (h : SocketsSettled w nb_procs m) {rets : List ℤ}
    (hrets : ∀ ret ∈ rets, 0 ≤ ret)
    (hmade : (rets.foldl (SocketMaster.socket nb_procs) m).created.length =
      m.created.length + rets.length) :
    SocketsSettled w nb_procs (rets.foldl (SocketMaster.socket nb_procs) m) ∧
      (AllSteps (SocketMaster.socket nb_procs) (SocketUsesIn nb_procs) m rets ↔
        ∀ j : ℕ, m.created.length ≤ j → j < m.created.length + rets.length →
          InScTable ((w + j).tmod nb_procs) ∧ InScTable (w + j)) := by
  induction rets generalizing m with
  | nil =>
    refine ⟨h, ?_⟩
    constructor
    · intro _ j hle hlt
      simp at hlt
      omega
    · intro _
      trivial
  | cons ret rets ih =>
    have hone := socket_created_le m nb_procs ret
    have hmore := sockets_created_le (m := m.socket nb_procs ret) nb_procs rets
    rw [List.foldl_cons, List.length_cons] at hmade
    have hlen : (m.socket nb_procs ret).created.length = m.created.length + 1 := by omega
    have hnext := h.socket (hrets ret List.mem_cons_self) hlen
    obtain ⟨hall, hiff⟩ := ih hnext (fun r hr => hrets r (List.mem_cons_of_mem _ hr)) (by omega)
    refine ⟨hall, ?_⟩
    rw [allSteps_cons, hiff, hlen, List.length_cons]
    have huses : SocketUsesIn nb_procs m ret ↔
        InScTable ((w + m.created.length).tmod nb_procs) ∧ InScTable (w + m.created.length) := by
      unfold SocketUsesIn AppProc.socketUses AppProc.nextZone
      rw [h.worker]
      simp
    rw [huses]
    constructor
    · rintro ⟨hfirst, hrest⟩ j hle hlt
      by_cases hj : j = m.created.length
      · rw [hj]
        exact hfirst
      · exact hrest j (by omega) (by omega)
    · intro hj
      exact ⟨hj _ (le_refl _) (by omega), fun j hle hlt => hj j (by omega) (by omega)⟩

end Sockets

/-! ## The search of a close -/

section Close

variable {p : AppProc} {fd : ℤ}

theorem closeLoop_looked (turns : ℕ) (i : ℤ) : ∀ j ∈ (p.closeLoop fd turns i).1, i ≤ j ∧ j < i + turns := by
  induction turns generalizing i with
  | zero =>
    intro j hj
    cases hj
  | succ turns ih =>
    intro j hj
    unfold AppProc.closeLoop at hj
    split at hj
    · rw [List.mem_singleton] at hj
      omega
    · rcases List.mem_cons.mp hj with rfl | hj
      · omega
      · have hrest := ih (i + 1) j hj
        omega

theorem closeLoop_found (h : (p.closeLoop fd turns i).2 = some j) :
    i ≤ j ∧ j < i + turns ∧ (p.scs j).fd = fd := by
  induction turns generalizing i with
  | zero => cases h
  | succ turns ih =>
    unfold AppProc.closeLoop at h
    split at h
    · rename_i hfd
      cases h
      exact ⟨le_refl _, by omega, hfd⟩
    · obtain ⟨hle, hlt, hfd⟩ := ih h
      exact ⟨by omega, by omega, hfd⟩

theorem closeLoop_finds (hle : i ≤ j) (hlt : j < i + turns) (hfd : (p.scs j).fd = fd) :
    ∃ k, (p.closeLoop fd turns i).2 = some k := by
  induction turns generalizing i with
  | zero => omega
  | succ turns ih =>
    unfold AppProc.closeLoop
    split
    · exact ⟨i, rfl⟩
    · rename_i hne
      have hi : i ≠ j := by
        rintro rfl
        exact hne hfd
      exact ih (by omega) (by omega)

end Close

/-! ## Forks and closes -/

section Workers

variable {created : List (ScPtr × ℤ)} {f : ℕ} {m : WorkerMaster}

/-- A worker gets the next context that waits, with its zone; a close is sent to a context that holds the
descriptor and was not used before.  The tables are used within their bounds. -/
def WorkerRight (m : WorkerMaster) : WorkerStep → Prop
  | .fork => InScTable m.parent.current_worker_id ∧
    ∀ c ∈ m.waiting.head?, (m.parent.beforeFork true).sc = some c.1 ∧
      (m.parent.beforeFork true).ff_so_zone = some c.1.zone
  | .close fd => (∀ i ∈ (m.parent.closeSearch fd).1, InScTable i) ∧
    ∃ sc, (m.parent.ffHookClose fd).sc = some sc ∧ (sc, fd) ∈ m.unused

/-- What is closed is open. -/
def ClosesOpen (m : WorkerMaster) : WorkerStep → Prop
  | .fork => True
  | .close fd => fd ∈ m.unclosed

/-- Nothing is closed before all workers are forked. -/
def ClosesLate (m : WorkerMaster) : WorkerStep → Prop
  | .fork => True
  | .close _ => m.parent.current_worker_id = m.parent.worker_id

/-- The parent has handed over the first `f` of its contexts, which stand in `scs` from 0 on. -/
structure WorkersPlaced (created : List (ScPtr × ℤ)) (f : ℕ) (m : WorkerMaster) : Prop where
  own : TableOwn m.parent
  worker : m.parent.worker_id = created.length
  current : m.parent.current_worker_id = f
  waiting : m.waiting = created.drop f
  entry : ∀ k : ℕ, ∀ c, created[k]? = some c → (m.parent.scs k).sc = some c.1

/-- INTERNAL: a fork that hands over the next context. -/
theorem WorkersPlaced.fork (h : WorkersPlaced created f m) (hf : f < created.length) :
    (m.parent.beforeFork true).sc = some created[f].1 ∧
      (m.step .fork).parent.scs = m.parent.scs ∧
      (m.step .fork).parent.ff_so_zones = m.parent.ff_so_zones ∧
      WorkersPlaced created (f + 1) (m.step .fork) := by
  have hsc : (m.parent.beforeFork true).sc = some created[f].1 := by
    unfold AppProc.beforeFork
    rw [if_pos rfl]
    dsimp only
    rw [h.current]
    exact h.entry f created[f] (List.getElem?_eq_getElem hf)
  have hparent : (m.step .fork).parent = { m.parent.beforeFork true with
      current_worker_id := (m.parent.beforeFork true).current_worker_id + 1 } := by
    unfold WorkerMaster.step AppProc.afterFork
    dsimp only
    rw [hsc]
    rfl
  refine ⟨hsc, ?_, ?_, ?_⟩
  · rw [hparent]
    rfl
  · rw [hparent]
    rfl
  · refine ⟨?_, ?_, ?_, ?_, ?_⟩
    · rw [hparent]
      exact h.own
    · rw [hparent]
      exact h.worker
    · rw [hparent]
      dsimp only
      have hcur : (m.parent.beforeFork true).current_worker_id = f := h.current
      rw [hcur]
      simp
    · unfold WorkerMaster.step
      dsimp only
      rw [h.waiting, List.tail_drop]
    · rw [hparent]
      exact h.entry

/-- INTERNAL: if all workers get the zones of their contexts, then these zones are known under the numbers
of the workers. -/
theorem WorkersPlaced.zones_of_right (h : WorkersPlaced created f m)
    (hforks : f + as.count .fork = created.length) (hlate : AllSteps WorkerMaster.step ClosesLate m as)
    (hright : AllSteps WorkerMaster.step WorkerRight m as) :
    ∀ k : ℕ, f ≤ k → ∀ c, created[k]? = some c → m.parent.ff_so_zones k = some c.1.zone := by
  induction as generalizing m f with
  | nil =>
    intro k hk c hc
    rw [List.getElem?_eq_none (by simp at hforks; omega)] at hc
    cases hc
  | cons a as ih =>
    rw [allSteps_cons] at hlate hright
    cases a with
    | close fd =>
      have hall : m.parent.current_worker_id = m.parent.worker_id := hlate.1
      rw [h.current, h.worker] at hall
      intro k hk c hc
      rw [List.getElem?_eq_none (by omega)] at hc
      cases hc
    | fork =>
      rw [List.count_cons_self] at hforks
      have hf : f < created.length := by omega
      obtain ⟨-, -, hzones, hnext⟩ := h.fork hf
      have hrest := ih hnext (by omega) hlate.2 hright.2
      rw [hzones] at hrest
      intro k hk c hc
      by_cases hkf : k = f
      · subst hkf
        have hhead : m.waiting.head? = some c := by
          rw [h.waiting, List.head?_drop, hc]
        have hzone := (hright.1.2 c hhead).2
        unfold AppProc.beforeFork at hzone
        rw [if_pos rfl] at hzone
        dsimp only at hzone
        rw [h.current] at hzone
        exact hzone
      · exact hrest k (by omega) c hc

/-- Moreover every context is in the zone with its number, and the entries of `scs` say which contexts are
not used for a close yet. -/
structure WorkersSettled (created : List (ScPtr × ℤ)) (f : ℕ) (m : WorkerMaster) : Prop
    extends WorkersPlaced created f m where
  zones : ∀ k : ℕ, ∀ c, created[k]? = some c → c.1.zone = k ∧ m.parent.ff_so_zones k = some (k : ℤ)
  fds : ∀ c ∈ created, 0 ≤ c.2
  marks : ∀ k : ℕ, ∀ c, created[k]? = some c → (m.parent.scs k).fd = c.2 ∨ (m.parent.scs k).fd = -1
  unused : ∀ c, c ∈ m.unused ↔ ∃ k : ℕ, created[k]? = some c ∧ (m.parent.scs k).fd = c.2
  nodup : m.unused.Nodup
  unclosed : m.unclosed.Perm (m.unused.map Prod.snd)

theorem WorkersSettled.fork (h : WorkersSettled created f m) (hf : f < created.length) :
    WorkersSettled created (f + 1) (m.step .fork) := by
  obtain ⟨-, hscs, hzones, hnext⟩ := h.toWorkersPlaced.fork hf
  refine ⟨hnext, ?_, h.fds, ?_, ?_, h.nodup, h.unclosed⟩
  · rw [hzones]
    exact h.zones
  · rw [hscs]
    exact h.marks
  · rw [hscs]
    exact h.unused

/-- What an open descriptor is found at. -/
theorem WorkersSettled.search (h : WorkersSettled created f m) {fd : ℤ} (hopen : fd ∈ m.unclosed)
    (hall : m.parent.current_worker_id = m.parent.worker_id) :
    ∃ k : ℕ, ∃ c, created[k]? = some c ∧ c.2 = fd ∧ (m.parent.scs k).fd = fd ∧
      (m.parent.closeSearch fd).2 = some (k : ℤ) := by
  obtain ⟨c, hc, rfl⟩ := List.mem_map.mp (h.unclosed.mem_iff.mp hopen)
  obtain ⟨k, hk, hfd⟩ := (h.unused c).mp hc
  have hlen : m.parent.worker_id.toNat = created.length := by
    rw [h.worker]
    exact Int.toNat_natCast _
  have hlt : k < created.length := (List.getElem?_eq_some_iff.mp hk).1
  unfold AppProc.closeSearch
  rw [if_pos hall, hlen]
  have hfinds : ∃ j, (m.parent.closeLoop c.2 created.length 0).2 = some j :=
    closeLoop_finds (by omega) (by omega) hfd
  obtain ⟨j, hj⟩ := hfinds
  obtain ⟨hle, hjlt, hjfd⟩ := closeLoop_found hj
  obtain ⟨k', rfl⟩ := Int.eq_ofNat_of_zero_le hle
  have hlt' : k' < created.length := by omega
  have hk' := List.getElem?_eq_getElem hlt'
  refine ⟨k', created[k'], hk', ?_, hjfd, hj⟩
  rcases h.marks k' _ hk' with hmark | hmark
  · rw [← hmark, hjfd]
  · have hpos := h.fds c (List.mem_of_getElem? hk)
    omega

theorem WorkersSettled.distinct (h : WorkersSettled created f m) {k' : ℕ} {c : ScPtr × ℤ}
    (hk : created[k]? = some c) (hk' : created[k']? = some c) : k = k' := by
  have hz := (h.zones k c hk).1
  have hz' := (h.zones k' c hk').1
  omega

/-- INTERNAL: a close after all workers are forked. -/
theorem WorkersSettled.close (h : WorkersSettled created f m) {fd : ℤ} (hopen : fd ∈ m.unclosed)
    (hall : m.parent.current_worker_id = m.parent.worker_id) :
    (∃ sc, (m.parent.ffHookClose fd).sc = some sc ∧ (sc, fd) ∈ m.unused) ∧
      WorkersSettled created f (m.step (.close fd)) := by
  obtain ⟨k, c, hk, rfl, hfd, hfound⟩ := h.search hopen hall
  have hmem : c ∈ m.unused := (h.unused c).mpr ⟨k, hk, hfd⟩
  have hclose : m.parent.ffHookClose c.2 = { m.parent with
      sc := (m.parent.scs k).sc
      scs := Function.update m.parent.scs k { m.parent.scs k with fd := -1 } } := by
    unfold AppProc.ffHookClose
    rw [hfound]
  have hsc : (m.parent.ffHookClose c.2).sc = some c.1 := by
    rw [hclose]
    exact h.entry k c hk
  have hscs : (m.parent.ffHookClose c.2).scs =
      Function.update m.parent.scs k { m.parent.scs k with fd := -1 } := by
    rw [hclose]
  have hfdk : ∀ k' : ℕ, ∀ c', created[k']? = some c' →
      (((m.parent.ffHookClose c.2).scs k').fd = c'.2 ↔ k' ≠ k ∧ (m.parent.scs k').fd = c'.2) := by
    intro k' c' hk'
    have hpos := h.fds c' (List.mem_of_getElem? hk')
    rw [hscs]
    by_cases heq : k' = k
    · subst heq
      rw [Function.update_self]
      dsimp only
      constructor
      · intro hbad
        omega
      · intro hbad
        exact absurd rfl hbad.1
    · rw [Function.update_of_ne (by omega)]
      exact ⟨fun hsame => ⟨heq, hsame⟩, fun hsame => hsame.2⟩
  refine ⟨⟨c.1, hsc, hmem⟩, ⟨⟨?_, ?_, ?_, h.waiting, ?_⟩, ?_, h.fds, ?_, ?_, ?_, ?_⟩⟩
  · unfold WorkerMaster.step
    dsimp only
    rw [hclose]
    exact h.own
  · unfold WorkerMaster.step
    dsimp only
    rw [hclose]
    exact h.worker
  · unfold WorkerMaster.step
    dsimp only
    rw [hclose]
    exact h.current
  · intro k' c' hk'
    unfold WorkerMaster.step
    dsimp only
    rw [hscs]
    by_cases heq : k' = k
    · subst heq
      rw [Function.update_self]
      exact h.entry k' c' hk'
    · rw [Function.update_of_ne (by omega)]
      exact h.entry k' c' hk'
  · unfold WorkerMaster.step
    dsimp only
    rw [hclose]
    exact h.zones
  · intro k' c' hk'
    unfold WorkerMaster.step
    dsimp only
    rw [hscs]
    by_cases heq : k' = k
    · subst heq
      rw [Function.update_self]
      right
      rfl
    · rw [Function.update_of_ne (by omega)]
      exact h.marks k' c' hk'
  · intro c'
    unfold WorkerMaster.step
    dsimp only
    rw [hsc]
    dsimp only
    rw [h.nodup.mem_erase_iff, h.unused]
    constructor
    · rintro ⟨hne, k', hk', hfd'⟩
      refine ⟨k', hk', (hfdk k' c' hk').mpr ⟨?_, hfd'⟩⟩
      rintro rfl
      rw [hk] at hk'
      exact hne (Option.some.inj hk').symm
    · rintro ⟨k', hk', hfd'⟩
      obtain ⟨hne, hfd''⟩ := (hfdk k' c' hk').mp hfd'
      refine ⟨?_, k', hk', hfd''⟩
      rintro rfl
      exact hne (h.distinct hk' hk)
  · unfold WorkerMaster.step
    dsimp only
    rw [hsc]
    exact h.nodup.erase _
  · unfold WorkerMaster.step
    dsimp only
    rw [hsc]
    dsimp only
    have hperm := h.unclosed.trans ((List.perm_cons_erase hmem).map Prod.snd)
    have herase := hperm.erase c.2
    rw [List.map_cons, List.erase_cons_head] at herase
    exact herase

/-- INTERNAL: a run of forks and closes of a parent whose counters agree. -/
theorem WorkersSettled.run (h : WorkersSettled created f m) (hmax : created.length ≤ SOCKET_OPS_CONTEXT_MAX_NUM)
    (hforks : f + as.count .fork = created.length) (hopen : AllSteps WorkerMaster.step ClosesOpen m as)
    (hlate : AllSteps WorkerMaster.step ClosesLate m as) :
    AllSteps WorkerMaster.step WorkerRight m as := by
  induction as generalizing m f with
  | nil => trivial
  | cons a as ih =>
    rw [allSteps_cons] at hopen hlate ⊢
    cases a with
    | fork =>
      rw [List.count_cons_self] at hforks
      have hf : f < created.length := by omega
      refine ⟨⟨?_, ?_⟩, ih (h.fork hf) (by omega) hopen.2 hlate.2⟩
      · unfold InScTable
        rw [h.current]
        omega
      · intro c hc
        rw [h.waiting, List.head?_drop] at hc
        obtain ⟨hsc, -⟩ := h.toWorkersPlaced.fork hf
        rw [Option.mem_def, List.getElem?_eq_getElem hf] at hc
        cases hc
        refine ⟨hsc, ?_⟩
        obtain ⟨hz, htable⟩ := h.zones f created[f] (List.getElem?_eq_getElem hf)
        unfold AppProc.beforeFork
        rw [if_pos rfl]
        dsimp only
        rw [h.current, htable, hz]
    | close fd =>
      rw [List.count_cons_of_ne (by simp)] at hforks
      obtain ⟨hsent, hnext⟩ := h.close hopen.1 hlate.1
      refine ⟨⟨?_, hsent⟩, ih hnext hforks hopen.2 hlate.2⟩
      intro i hi
      have hall : m.parent.current_worker_id = m.parent.worker_id := hlate.1
      unfold AppProc.closeSearch at hi
      rw [if_pos hall, h.worker, Int.toNat_natCast] at hi
      obtain ⟨hle, hlt⟩ := closeLoop_looked created.length 0 i hi
      unfold InScTable
      omega

end Workers

/-! ## The whole hand-over -/

section HandOver

variable {nb_procs w : ℤ} {sm : SocketMaster}

theorem natCast_tmod_of_lt (h : k < nb_procs.natAbs) : (k : ℤ).tmod nb_procs = k := by
  rw [Int.tmod_eq_emod_of_nonneg (by omega), ← Int.emod_abs, Int.abs_eq_natAbs]
  apply Int.emod_eq_of_lt
  · omega
  · omega

theorem sockets_no_instances (rets : List ℤ) :
    (rets.foldl (SocketMaster.socket 0) sm).created = sm.created := by
  induction rets generalizing sm with
  | nil => rfl
  | cons ret rets ih =>
    rw [List.foldl_cons, ih]
    simp [SocketMaster.socket, AppProc.ffHookSocket]

theorem SocketsSettled.placed (h : SocketsSettled 0 nb_procs sm) :
    WorkersPlaced sm.created 0 (WorkerMaster.start sm) := by
  refine ⟨h.own, ?_, h.current, rfl, ?_⟩
  · have hw := h.worker
    rw [Int.zero_add] at hw
    exact hw
  · intro k c hk
    have hentry := (h.entry k c hk).1
    rw [Int.zero_add] at hentry
    exact congrArg MultiSc.sc hentry

theorem SocketsSettled.ready (h : SocketsSettled 0 nb_procs sm)
    (hn : sm.created.length ≤ nb_procs.natAbs) :
    WorkersSettled sm.created 0 (WorkerMaster.start sm) := by
  have hfd : ∀ k : ℕ, ∀ c, sm.created[k]? = some c → (sm.parent.scs k).fd = c.2 := by
    intro k c hk
    have hentry := (h.entry k c hk).1
    rw [Int.zero_add] at hentry
    exact congrArg MultiSc.fd hentry
  have hzone : ∀ k : ℕ, ∀ c, sm.created[k]? = some c →
      c.1.zone = k ∧ sm.parent.ff_so_zones k = some (k : ℤ) := by
    intro k c hk
    have hlt := (List.getElem?_eq_some_iff.mp hk).1
    obtain ⟨-, hz, ht⟩ := h.entry k c hk
    rw [Int.zero_add, natCast_tmod_of_lt (by omega)] at hz
    rw [hz] at ht
    exact ⟨hz, ht⟩
  refine ⟨h.placed, hzone, h.fds, ?_, ?_, ?_, List.Perm.refl _⟩
  · intro k c hk
    left
    exact hfd k c hk
  · intro c
    constructor
    · intro hc
      obtain ⟨k, hk⟩ := List.mem_iff_getElem?.mp hc
      exact ⟨k, hk, hfd k c hk⟩
    · rintro ⟨k, hk, -⟩
      exact List.mem_of_getElem? hk
  · apply List.nodup_iff_getElem?_ne_getElem?.mpr
    intro i j hij hj heq
    have hjs := List.getElem?_eq_getElem hj
    have hi := (hzone i _ (heq.trans hjs)).1
    have hj' := (hzone j _ hjs).1
    omega

/-- **What the workers get**.  A parent makes `rets.length` sockets, forks as many workers, and
closes descriptors after that.  The tables are used within their bounds, every worker gets its context and the
zone of this context, and closes are sent to the contexts that hold the descriptors, each once, exactly if
`FF_PROC_ID` was 0 and there are not more workers than instances or entries of the tables.
SOURCE: adapter/syscall/ff_hook_syscall.c:3331-3348, 2461-2495, 1877-1907, ff_so_zone.c:159-190 -/
theorem handOver_iff (zones : SoZones) (nb_procs w : ℤ) (rets : List ℤ) (as : List WorkerStep)
    (hrets : ∀ ret ∈ rets, 0 ≤ ret)
    (hmade : (rets.foldl (SocketMaster.socket nb_procs) (SocketMaster.init zones w)).created.length =
      rets.length)
    (hforks : as.count .fork = rets.length)
    (hopen : AllSteps WorkerMaster.step ClosesOpen
      (WorkerMaster.start (rets.foldl (SocketMaster.socket nb_procs) (SocketMaster.init zones w))) as)
    (hlate : AllSteps WorkerMaster.step ClosesLate
      (WorkerMaster.start (rets.foldl (SocketMaster.socket nb_procs) (SocketMaster.init zones w))) as) :
    (AllSteps (SocketMaster.socket nb_procs) (SocketUsesIn nb_procs) (SocketMaster.init zones w) rets ∧
      AllSteps WorkerMaster.step WorkerRight
        (WorkerMaster.start (rets.foldl (SocketMaster.socket nb_procs) (SocketMaster.init zones w))) as) ↔
    rets = [] ∨ (w = 0 ∧ rets.length ≤ nb_procs.natAbs ∧ rets.length ≤ SOCKET_OPS_CONTEXT_MAX_NUM) := by
  have hinit : (SocketMaster.init zones w).created.length = 0 := rfl
  obtain ⟨hsettled, huses⟩ := (SocketsSettled.init zones w nb_procs).sockets hrets (by omega)
  have hnone : nb_procs = 0 → rets = [] := by
    rintro rfl
    rw [sockets_no_instances] at hmade
    exact List.length_eq_zero_iff.mp hmade.symm
  generalize rets.foldl (SocketMaster.socket nb_procs) (SocketMaster.init zones w) = sm at *
  rw [huses, hinit]
  constructor
  · rintro ⟨htables, hright⟩
    by_cases hempty : rets = []
    · exact Or.inl hempty
    right
    have hpos : 0 < rets.length := List.length_pos_iff.mpr hempty
    have hfirst := (htables 0 (le_refl _) (by omega)).2
    have hlast := (htables (rets.length - 1) (by omega) (by omega)).2
    unfold InScTable at hfirst hlast
    have hzero : w = 0 := by
      cases as with
      | nil =>
        rw [List.count_nil] at hforks
        omega
      | cons a as =>
        rw [allSteps_cons] at hlate hright
        cases a with
        | close fd =>
          have hall : sm.parent.current_worker_id = sm.parent.worker_id := hlate.1
          rw [hsettled.current, hsettled.worker] at hall
          omega
        | fork =>
          by_contra hw
          have hget := List.getElem?_eq_getElem (show 0 < sm.created.length by omega)
          have hsc := (hright.1.2 sm.created[0] (List.head?_eq_getElem? ▸ hget)).1
          unfold AppProc.beforeFork at hsc
          rw [if_pos rfl] at hsc
          dsimp only [WorkerMaster.start] at hsc
          rw [hsettled.current, hsettled.others 0 (by omega)] at hsc
          cases hsc
    subst hzero
    refine ⟨rfl, ?_, by omega⟩
    by_contra hmany
    have hk : nb_procs.natAbs < sm.created.length := by omega
    have hget := List.getElem?_eq_getElem hk
    have htable := hsettled.placed.zones_of_right (by omega) hlate hright _ (Nat.zero_le _) _ hget
    have hzone := hsettled.own _ _ htable
    obtain ⟨-, hmod, -⟩ := hsettled.entry _ _ hget
    rw [Int.zero_add, Int.tmod_eq_zero_of_dvd (Int.dvd_natAbs_self)] at hmod
    have hnb : nb_procs = 0 := by omega
    exact hempty (hnone hnb)
  · rintro (rfl | ⟨rfl, hinstances, hmax⟩)
    · refine ⟨?_, ?_⟩
      · intro j _ hlt
        simp at hlt
      · have hcreated : sm.created = [] := List.length_eq_zero_iff.mp hmade
        cases as with
        | nil => trivial
        | cons a as =>
          cases a with
          | fork => simp at hforks
          | close fd =>
            have hmem : fd ∈ sm.created.map Prod.snd := hopen.1
            rw [hcreated] at hmem
            cases hmem
    · refine ⟨?_, ?_⟩
      · intro j _ hlt
        rw [Int.zero_add, natCast_tmod_of_lt (by omega)]
        unfold InScTable
        omega
      · exact (hsettled.ready (by omega)).run (by omega) (by omega) hopen hlate

def someZones : SoZones := ⟨fun _ => SoZone.create 1 (Nat.le_add_left 1 4), 2⟩

/-- Two instances and two workers; both instances answer the same descriptor, which is closed twice. -/
theorem handOver_two_workers :
    (AllSteps (SocketMaster.socket 2) (SocketUsesIn 2) (SocketMaster.init someZones 0) [3, 3] ∧
      AllSteps WorkerMaster.step WorkerRight
        (WorkerMaster.start ([3, 3].foldl (SocketMaster.socket 2) (SocketMaster.init someZones 0)))
        [.fork, .fork, .close 3, .close 3]) ↔
    [(3 : ℤ), 3] = [] ∨ ((0 : ℤ) = 0 ∧ [(3 : ℤ), 3].length ≤ (2 : ℤ).natAbs ∧
      [(3 : ℤ), 3].length ≤ SOCKET_OPS_CONTEXT_MAX_NUM) := by
  apply handOver_iff someZones 2 0 [3, 3] [.fork, .fork, .close 3, .close 3]
  · decide
  · decide
  · decide
  · refine ⟨trivial, trivial, ?_, ?_, trivial⟩
    · show (3 : ℤ) ∈ _
      decide
    · show (3 : ℤ) ∈ _
      decide
  · exact ⟨trivial, trivial, rfl, rfl, trivial⟩

/-- With one instance and two workers the second worker has no zone. -/
theorem second_worker_without_zone :
    ¬ (AllSteps (SocketMaster.socket 1) (SocketUsesIn 1) (SocketMaster.init someZones 0) [3, 4] ∧
      AllSteps WorkerMaster.step WorkerRight
        (WorkerMaster.start ([3, 4].foldl (SocketMaster.socket 1) (SocketMaster.init someZones 0)))
        [.fork, .fork, .close 3, .close 4]) := by
  rintro ⟨-, -, ⟨-, hsecond⟩, -⟩
  obtain ⟨-, hzone⟩ := hsecond (⟨0, 1⟩, 4) (by decide)
  revert hzone
  decide

end HandOver

end FStack.Analysis
