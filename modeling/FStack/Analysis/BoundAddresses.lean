import FStack.Model.BoundTable
import FStack.Prelude.Monitored
import Mathlib.Data.List.Pairwise

/-!
# What the table of bound addresses knows

An entry is right if its descriptor is open and bound to the recorded address.  Three kinds of requests
make it wrong, or are answered from it in a wrong way: an IPv6 address is compared without its 16 bytes; a
descriptor that has an entry can become a duplicate of another one, and keeps its entry; and of a port 0
the table does not learn what it became.

`boundRun_iff` says that it is these alone.
-/

set_option autoImplicit false

namespace FStack.Analysis

open FStack.Model FStack.Prelude

variable {s : BoundState} {table : List BoundInfo} {fd : ℕ} {addr : SockAddr} {a : SockAddrHead}
variable {e : BoundInfo} {b : SockAddr} {sock src : ℕ} {s' : BoundState}

/-- Every used entry names an open descriptor that is bound to the recorded address. -/
def TableRight (s : BoundState) : Prop :=
  ∀ e ∈ s.table, e.fd ≠ 0 → ∃ b, s.boundTo e.fd = some b ∧ b.head = e.addr

/-- Two used entries are of different descriptors, and their addresses are not taken for equal. -/
def Apart (e e' : BoundInfo) : Prop :=
  e.fd ≠ 0 → e'.fd ≠ 0 → e.fd ≠ e'.fd ∧ sockaddrCmp e.addr e'.addr = false

/-- What holds of the table and the sockets as long as every request keeps the entries right. -/
structure TableKept (s : BoundState) : Prop where
  right : TableRight s
  apart : s.table.Pairwise Apart
  unused : ∀ sock, s.made ≤ sock → s.addr sock = none
  known : ∀ fd sock, s.socket fd = some sock → sock < s.made

/-! ## The addresses -/

theorem sockaddrCmp_comm (a b : SockAddrHead) : sockaddrCmp a b = sockaddrCmp b a := by
  unfold sockaddrCmp
  rw [Bool.beq_comm, BEq.comm (a := a.port), BEq.comm (a := a.word)]

theorem Apart.symm {e' : BoundInfo} (h : Apart e e') : Apart e' e := by
  intro he' he
  obtain ⟨hfd, hcmp⟩ := h he he'
  exact ⟨hfd.symm, (sockaddrCmp_comm _ _).trans hcmp⟩

instance : Std.Symm Apart := ⟨fun _ _ h => h.symm⟩

/-- IPv4 addresses that are taken for equal are equal. -/
theorem eq_of_sockaddrCmp (h : sockaddrCmp b.head addr.head = true) (hfamily : addr.head.family ≠ .inet6) :
    b = addr := by
  simp only [sockaddrCmp, Bool.and_eq_true, beq_iff_eq] at h
  cases addr with
  | inet6 port flowinfo addr scope_id => exact absurd rfl hfamily
  | inet port addr =>
    cases b with
    | inet6 port' flowinfo addr' scope_id => exact absurd h.1.1 (by simp [SockAddr.head])
    | inet port' addr' =>
      obtain ⟨⟨-, hport⟩, hword⟩ := h
      simp only [SockAddr.head] at hport hword
      rw [hport, hword]

theorem head_withPort_ne {port : BitVec 16} (hport : port ≠ 0) (hzero : addr.port = 0) :
    (addr.withPort port).head ≠ addr.head := by
  intro heq
  apply hport
  have hp := congrArg SockAddrHead.port heq
  cases addr with
  | inet p a => exact hp.trans hzero
  | inet6 p f a i => exact hp.trans hzero

/-! ## The loops over the table -/

theorem sockaddrIsBound_some (h : sockaddrIsBound a table ≠ 0) :
    ∃ e ∈ table, e.fd = sockaddrIsBound a table ∧ sockaddrCmp e.addr a = true := by
  induction table with
  | nil => exact absurd rfl h
  | cons info rest ih =>
    unfold sockaddrIsBound at h ⊢
    split
    · rename_i hzero
      rw [if_pos hzero] at h
      obtain ⟨e, he, heq⟩ := ih h
      exact ⟨e, List.mem_cons_of_mem _ he, heq⟩
    · rename_i hused
      rw [if_neg hused] at h
      split
      · rename_i hcmp
        exact ⟨info, List.mem_cons_self, rfl, hcmp⟩
      · rename_i hcmp
        rw [if_neg hcmp] at h
        obtain ⟨e, he, heq⟩ := ih h
        exact ⟨e, List.mem_cons_of_mem _ he, heq⟩

theorem sockaddrIsBound_none (h : sockaddrIsBound a table = 0) :
    ∀ e ∈ table, e.fd ≠ 0 → sockaddrCmp e.addr a = false := by
  induction table with
  | nil => simp
  | cons info rest ih =>
    unfold sockaddrIsBound at h
    rw [List.forall_mem_cons]
    split at h
    · rename_i hzero
      exact ⟨fun hused => absurd hzero hused, ih h⟩
    · rename_i hused
      split at h
      · exact absurd h hused
      · rename_i hcmp
        exact ⟨fun _ => Bool.eq_false_of_not_eq_true hcmp, ih h⟩

theorem mem_sockaddrBind (h : e ∈ sockaddrBind fd a table) :
    e ∈ table ∨ (e = ⟨fd, a⟩ ∧ ∃ e' ∈ table, e'.fd = 0) := by
  induction table with
  | nil => exact Or.inl h
  | cons info rest ih =>
    unfold sockaddrBind at h
    split at h
    · rcases List.mem_cons.mp h with rfl | h
      · exact Or.inl List.mem_cons_self
      · rcases ih h with hmem | ⟨heq, e', he', hzero⟩
        · exact Or.inl (List.mem_cons_of_mem _ hmem)
        · exact Or.inr ⟨heq, e', List.mem_cons_of_mem _ he', hzero⟩
    · rename_i hzero
      rw [not_not] at hzero
      rcases List.mem_cons.mp h with rfl | h
      · exact Or.inr ⟨rfl, info, List.mem_cons_self, hzero⟩
      · exact Or.inl (List.mem_cons_of_mem _ h)

theorem sockaddrBind_mem (h : ∃ e ∈ table, e.fd = 0) : ⟨fd, a⟩ ∈ sockaddrBind fd a table := by
  induction table with
  | nil => simp at h
  | cons info rest ih =>
    unfold sockaddrBind
    split
    · rename_i hused
      apply List.mem_cons_of_mem
      apply ih
      obtain ⟨e, he, hzero⟩ := h
      rcases List.mem_cons.mp he with rfl | he
      · exact absurd hzero hused
      · exact ⟨e, he, hzero⟩
    · exact List.mem_cons_self

theorem sockaddrBind_pairwise (h : table.Pairwise Apart) (hnew : ∀ e ∈ table, Apart e ⟨fd, a⟩) :
    (sockaddrBind fd a table).Pairwise Apart := by
  induction table with
  | nil => exact h
  | cons info rest ih =>
    rw [List.pairwise_cons] at h
    rw [List.forall_mem_cons] at hnew
    unfold sockaddrBind
    split
    · rw [List.pairwise_cons]
      refine ⟨?_, ih h.2 hnew.2⟩
      intro e he
      rcases mem_sockaddrBind he with he | ⟨rfl, -⟩
      · exact h.1 e he
      · exact hnew.1
    · rw [List.pairwise_cons]
      exact ⟨fun e he => (hnew.2 e he).symm, h.2⟩

theorem mem_sockaddrUnbind (hdistinct : table.Pairwise Apart) (h : e ∈ sockaddrUnbind fd table)
    (hused : e.fd ≠ 0) : e ∈ table ∧ e.fd ≠ fd := by
  induction table with
  | nil => cases h
  | cons info rest ih =>
    rw [List.pairwise_cons] at hdistinct
    unfold sockaddrUnbind at h
    split at h
    · rename_i hother
      rcases List.mem_cons.mp h with rfl | h
      · exact ⟨List.mem_cons_self, hother⟩
      · obtain ⟨he, hne⟩ := ih hdistinct.2 h
        exact ⟨List.mem_cons_of_mem _ he, hne⟩
    · rename_i hsame
      rw [not_not] at hsame
      rcases List.mem_cons.mp h with rfl | h
      · exact absurd rfl hused
      · refine ⟨List.mem_cons_of_mem _ h, ?_⟩
        intro heq
        have hinfo : info.fd ≠ 0 := by rwa [hsame, ← heq]
        exact (hdistinct.1 e h hinfo hused).1 (hsame.trans heq.symm)

theorem sockaddrUnbind_pairwise (h : table.Pairwise Apart) : (sockaddrUnbind fd table).Pairwise Apart := by
  induction table with
  | nil => exact h
  | cons info rest ih =>
    rw [List.pairwise_cons] at h
    unfold sockaddrUnbind
    split
    · rw [List.pairwise_cons]
      refine ⟨?_, ih h.2⟩
      intro e he hinfo hused
      exact h.1 e (mem_sockaddrUnbind h.2 he hused).1 hinfo hused
    · rw [List.pairwise_cons]
      exact ⟨fun e he hzero => absurd rfl hzero, h.2⟩

/-! ## Requests -/

/-- A request is answered rightly, and leaves the entries right. -/
def RequestRight (s : BoundState) (req : BoundReq) : Prop :=
  TableRight (s.step req) ∧
  match req with
  | .bind fd addr _ _ =>
    (s.socket fd).isSome → ∀ src, s.duplicated fd addr = some src → s.boundTo src = some addr
  | _ => True

/-- A bind that makes a duplicate is one of a descriptor without an entry, and if it is for an IPv6 address,
the original is bound to this one.  One that gets an entry is not for port 0. -/
def RequestSafe (s : BoundState) : BoundReq → Prop
  | .bind fd addr refused _ =>
    (s.socket fd).isSome →
      (∀ src, s.duplicated fd addr = some src →
        (fd = 0 ∨ ∀ e ∈ s.table, e.fd ≠ fd) ∧
        (addr.head.family = .inet6 → s.boundTo src = some addr)) ∧
      (s.duplicated fd addr = none → addr.port = 0 →
        refused = true ∨ (s.boundTo fd).isSome ∨ fd = 0 ∨ ∀ e ∈ s.table, e.fd ≠ 0)
  | _ => True

theorem boundTo_eq (h : s.socket fd = some sock) : s.boundTo fd = s.addr sock := by
  simp [BoundState.boundTo, h]

/-- The descriptor that is duplicated has an entry that looks like the address. -/
theorem duplicated_some (h : s.duplicated fd addr = some src) :
    src ≠ 0 ∧ src ≠ fd ∧ ∃ e ∈ s.table, e.fd = src ∧ sockaddrCmp e.addr addr.head = true := by
  unfold BoundState.duplicated at h
  dsimp only at h
  split at h
  · rename_i hbound
    cases h
    exact ⟨hbound.1, hbound.2, sockaddrIsBound_some hbound.1⟩
  · cases h

/-- If nothing is duplicated, an entry that looks like the address is one of the descriptor itself. -/
theorem duplicated_none (h : TableKept s) (hnone : s.duplicated fd addr = none)
    (hfree : s.boundTo fd = none) :
    ∀ e ∈ s.table, e.fd ≠ 0 → sockaddrCmp e.addr addr.head = false := by
  apply sockaddrIsBound_none
  by_contra hbound
  unfold BoundState.duplicated at hnone
  dsimp only at hnone
  split at hnone
  · cases hnone
  · rename_i hcond
    rw [not_and, not_not] at hcond
    obtain ⟨e, he, hfd, -⟩ := sockaddrIsBound_some hbound
    rw [hcond hbound] at hfd
    have hused : e.fd ≠ 0 := by rwa [hfd, ← hcond hbound]
    obtain ⟨b, hb, -⟩ := h.right e he hused
    rw [hfd, hfree] at hb
    cases hb

/-- The entries are right when the descriptors that have one are bound as before. -/
theorem TableRight.congr (h : TableRight s) (htable : s'.table = s.table)
    (hbound : ∀ e ∈ s.table, e.fd ≠ 0 → s'.boundTo e.fd = s.boundTo e.fd) : TableRight s' := by
  intro e he hused
  rw [htable] at he
  rw [hbound e he hused]
  exact h e he hused

/-- INTERNAL: a new descriptor. -/
theorem TableKept.socket (h : TableKept s) (fd : ℕ) : TableKept (s.step (.socket fd)) := by
  simp only [BoundState.step]
  split
  · exact h
  · rename_i hclosed
    refine ⟨?_, h.apart, ?_, ?_⟩
    · refine TableRight.congr h.right rfl ?_
      intro e he hused
      obtain ⟨b, hb, -⟩ := h.right e he hused
      have hne : e.fd ≠ fd := by
        intro heq
        rw [heq] at hb
        simp [BoundState.boundTo, Option.not_isSome_iff_eq_none.mp hclosed] at hb
      simp [BoundState.boundTo, Function.update_of_ne hne]
    · intro sock hsock
      exact h.unused sock (Nat.le_of_succ_le hsock)
    · intro fd' sock hsock
      by_cases heq : fd' = fd
      · subst heq
        simp only [Function.update_self, Option.some.injEq] at hsock
        rw [← hsock]
        exact Nat.lt_succ_self _
      · simp only [Function.update_of_ne heq] at hsock
        exact Nat.lt_succ_of_lt (h.known fd' sock hsock)

/-- INTERNAL: a descriptor is closed. -/
theorem TableKept.close (h : TableKept s) (fd : ℕ) : TableKept (s.step (.close fd)) := by
  simp only [BoundState.step]
  split
  · refine ⟨?_, sockaddrUnbind_pairwise h.apart, h.unused, ?_⟩
    · intro e he hused
      obtain ⟨hmem, hne⟩ := mem_sockaddrUnbind h.apart he hused
      obtain ⟨b, hb, heq⟩ := h.right e hmem hused
      refine ⟨b, ?_, heq⟩
      simpa [BoundState.boundTo, BoundState.ffSysClose, Function.update_of_ne hne] using hb
    · intro fd' sock hsock
      by_cases heq : fd' = fd
      · subst heq
        simp [BoundState.ffSysClose] at hsock
      · simp only [BoundState.ffSysClose, Function.update_of_ne heq] at hsock
        exact h.known fd' sock hsock
  · exact h

/-- INTERNAL: a descriptor without an entry becomes a duplicate. -/
theorem TableKept.dup (h : TableKept s) (hentry : fd = 0 ∨ ∀ e ∈ s.table, e.fd ≠ fd) :
    TableKept (s.ffDup2 src fd) := by
  refine ⟨?_, h.apart, h.unused, ?_⟩
  · refine TableRight.congr h.right rfl ?_
    intro e he hused
    have hne : e.fd ≠ fd := by
      rcases hentry with rfl | hentry
      · exact hused
      · exact hentry e he
    simp [BoundState.boundTo, BoundState.ffDup2, Function.update_of_ne hne]
  · intro fd' sock hsock
    by_cases heq : fd' = fd
    · subst heq
      simp only [BoundState.ffDup2, Function.update_self] at hsock
      exact h.known src sock hsock
    · simp only [BoundState.ffDup2, Function.update_of_ne heq] at hsock
      exact h.known fd' sock hsock

/-- The address that `ff_bind` gives to a socket. -/
def givenAddr (addr : SockAddr) (ephemeral : { port : BitVec 16 // port ≠ 0 }) : SockAddr :=
  if addr.port = 0 then addr.withPort ephemeral.val else addr

theorem ffBind_some {refused : Bool} {ephemeral : { port : BitVec 16 // port ≠ 0 }}
    (h : s.ffBind fd addr refused ephemeral = some s') :
    ∃ sock, s.socket fd = some sock ∧ s.addr sock = none ∧ refused = false ∧
      s' = { s with addr := Function.update s.addr sock (some (givenAddr addr ephemeral)) } := by
  unfold BoundState.ffBind at h
  split at h
  · cases h
  · rename_i sock hsock
    split at h
    · cases h
    · rename_i hcond
      simp only [Bool.or_eq_true, not_or, Bool.not_eq_true, Option.isSome_eq_false_iff,
        Option.isNone_iff_eq_none] at hcond
      cases h
      exact ⟨sock, hsock, hcond.1, hcond.2, rfl⟩

/-- INTERNAL: a socket is bound, and gets an entry if there is room. -/
theorem TableKept.bound (h : TableKept s) (hsock : s.socket fd = some sock) (hfree : s.addr sock = none)
    (hcmp : ∀ e ∈ s.table, e.fd ≠ 0 → sockaddrCmp e.addr addr.head = false)
    (hhead : fd ≠ 0 → (∃ e ∈ s.table, e.fd = 0) → b.head = addr.head) :
    TableKept { s with
      addr := Function.update s.addr sock (some b)
      table := sockaddrBind fd addr.head s.table } := by
  -- a descriptor that has an entry refers to another socket
  have hother : ∀ e ∈ s.table, e.fd ≠ 0 → ∃ sock', s.socket e.fd = some sock' ∧ sock' ≠ sock := by
    intro e he hused
    obtain ⟨c, hc, -⟩ := h.right e he hused
    obtain ⟨sock', hsock', haddr⟩ := Option.bind_eq_some_iff.mp hc
    refine ⟨sock', hsock', ?_⟩
    rintro rfl
    rw [hfree] at haddr
    cases haddr
  refine ⟨?_, ?_, ?_, h.known⟩
  · intro e he hused
    rcases mem_sockaddrBind he with hmem | ⟨rfl, hroom⟩
    · obtain ⟨c, hc, heq⟩ := h.right e hmem hused
      obtain ⟨sock', hsock', hne⟩ := hother e hmem hused
      refine ⟨c, ?_, heq⟩
      rw [boundTo_eq hsock'] at hc
      simpa [BoundState.boundTo, hsock', Function.update_of_ne hne] using hc
    · exact ⟨b, by simp [BoundState.boundTo, hsock], hhead hused hroom⟩
  · apply sockaddrBind_pairwise h.apart
    intro e he hused hfd
    refine ⟨?_, hcmp e he hused⟩
    intro heq
    obtain ⟨sock', hsock', hne⟩ := hother e he hused
    rw [show e.fd = fd from heq, hsock] at hsock'
    exact hne (Option.some.inj hsock').symm
  · intro sock' hle
    have hlt := h.known fd sock hsock
    have hne : sock' ≠ sock := by
      rintro rfl
      exact absurd hlt (Nat.not_lt.mpr hle)
    simp only [Function.update_of_ne hne]
    exact h.unused sock' hle

variable {refused : Bool} {ephemeral : { port : BitVec 16 // port ≠ 0 }}

/-- The address that is duplicated, if the request is safe. -/
theorem boundTo_duplicated (h : TableKept s) (hdup : s.duplicated fd addr = some src)
    (hsix : addr.head.family = .inet6 → s.boundTo src = some addr) : s.boundTo src = some addr := by
  by_cases hfamily : addr.head.family = .inet6
  · exact hsix hfamily
  · obtain ⟨hsrc, -, e, he, hfd, hcmp⟩ := duplicated_some hdup
    have hused : e.fd ≠ 0 := by rwa [hfd]
    obtain ⟨b, hb, hhead⟩ := h.right e he hused
    rw [hfd] at hb
    rw [← hhead] at hcmp
    rw [hb, eq_of_sockaddrCmp hcmp hfamily]

theorem step_bind_of_dup (hopen : (s.socket fd).isSome = true) (hdup : s.duplicated fd addr = some src) :
    s.step (.bind fd addr refused ephemeral) = s.ffDup2 src fd := by
  simp only [BoundState.step, hopen, if_true, BoundState.ffSysBind, hdup]

theorem step_bind_of_fail (hdup : s.duplicated fd addr = none)
    (hbind : s.ffBind fd addr refused ephemeral = none) :
    s.step (.bind fd addr refused ephemeral) = s := by
  simp only [BoundState.step, BoundState.ffSysBind, hdup, hbind, ite_self]

theorem step_bind_of_some (hopen : (s.socket fd).isSome = true) (hdup : s.duplicated fd addr = none)
    (hbind : s.ffBind fd addr refused ephemeral =
      some { s with addr := Function.update s.addr sock (some (givenAddr addr ephemeral)) }) :
    s.step (.bind fd addr refused ephemeral) =
      { s with
        addr := Function.update s.addr sock (some (givenAddr addr ephemeral))
        table := sockaddrBind fd addr.head s.table } := by
  simp only [BoundState.step, hopen, if_true, BoundState.ffSysBind, hdup, hbind]

/-- **A safe bind** keeps the table right. -/
theorem TableKept.bind (h : TableKept s) (hopen : (s.socket fd).isSome = true)
    (hsafe : RequestSafe s (.bind fd addr refused ephemeral)) :
    TableKept (s.step (.bind fd addr refused ephemeral)) := by
  obtain ⟨hdupsafe, hzero⟩ := hsafe hopen
  cases hdup : s.duplicated fd addr with
  | some src =>
    rw [step_bind_of_dup hopen hdup]
    exact h.dup (hdupsafe src hdup).1
  | none =>
    cases hbind : s.ffBind fd addr refused ephemeral with
    | none =>
      rw [step_bind_of_fail hdup hbind]
      exact h
    | some s' =>
      obtain ⟨sock, hsock, hfree, hacc, rfl⟩ := ffBind_some hbind
      have hunbound : s.boundTo fd = none := (boundTo_eq hsock).trans hfree
      rw [step_bind_of_some hopen hdup hbind]
      apply h.bound hsock hfree (duplicated_none h hdup hunbound)
      intro hfd ⟨e, he, heused⟩
      unfold givenAddr
      split
      · rename_i hport
        rcases hzero hdup hport with hrefused | hsome | hfdz | hfull
        · rw [hacc] at hrefused
          cases hrefused
        · rw [hunbound] at hsome
          cases hsome
        · exact absurd hfdz hfd
        · exact absurd heused (hfull e he)
      · rfl

/-- INTERNAL: a bind that is answered rightly, and leaves the entries right, is safe. -/
theorem requestSafe_of_right (h : TableKept s)
    (hright : RequestRight s (.bind fd addr refused ephemeral)) :
    RequestSafe s (.bind fd addr refused ephemeral) := by
  obtain ⟨htable, hanswer⟩ := hright
  intro hopen
  refine ⟨?_, ?_⟩
  · intro src hdup
    have hsrc := hanswer hopen src hdup
    refine ⟨?_, fun _ => hsrc⟩
    by_cases hfd : fd = 0
    · exact Or.inl hfd
    · right
      intro e he heq
      -- the entry of the new duplicate would have to look like that of the original
      rw [step_bind_of_dup hopen hdup] at htable
      obtain ⟨hpos, hne, e₀, he₀, hfd₀, hcmp⟩ := duplicated_some hdup
      obtain ⟨b, hb, hhead⟩ := htable e he (by rwa [heq])
      have hnow : (s.ffDup2 src fd).boundTo fd = s.boundTo src := by
        simp [BoundState.boundTo, BoundState.ffDup2]
      rw [heq, hnow, hsrc] at hb
      cases hb
      have hdiff : e₀ ≠ e := by
        rintro rfl
        exact hne (hfd₀.symm.trans heq)
      have hap := h.apart.forall he₀ he hdiff (by rwa [hfd₀]) (by rwa [heq])
      rw [← hhead, hcmp] at hap
      exact Bool.noConfusion hap.2
  · intro hdup hport
    cases hbind : s.ffBind fd addr refused ephemeral with
    | none =>
      unfold BoundState.ffBind at hbind
      split at hbind
      · rename_i hnone
        rw [hnone] at hopen
        cases hopen
      · rename_i sock hsock
        split at hbind
        · rename_i hcond
          rw [Bool.or_eq_true] at hcond
          rcases hcond with hsome | hrefused
          · right
            left
            rw [boundTo_eq hsock]
            exact hsome
          · exact Or.inl hrefused
        · cases hbind
    | some s' =>
      obtain ⟨sock, hsock, -, -, rfl⟩ := ffBind_some hbind
      rw [step_bind_of_some hopen hdup hbind] at htable
      right
      right
      by_cases hfd : fd = 0
      · exact Or.inl hfd
      · right
        intro e he hzero
        obtain ⟨b, hb, hhead⟩ := htable ⟨fd, addr.head⟩ (sockaddrBind_mem ⟨e, he, hzero⟩) hfd
        have hnow : b = addr.withPort ephemeral.val := by
          simp only [BoundState.boundTo, hsock, Option.bind_eq_bind, Option.bind_some,
            Function.update_self, Option.some.injEq, givenAddr, if_pos hport] at hb
          exact hb.symm
        rw [hnow] at hhead
        exact head_withPort_ne ephemeral.property hport hhead

/-- **One request.** -/
theorem requestRight_iff (h : TableKept s) (req : BoundReq) :
    (RequestRight s req ↔ RequestSafe s req) ∧ (RequestSafe s req → TableKept (s.step req)) := by
  cases req with
  | socket fd =>
    have hkept := h.socket fd
    exact ⟨iff_of_true ⟨hkept.right, trivial⟩ trivial, fun _ => hkept⟩
  | close fd =>
    have hkept := h.close fd
    exact ⟨iff_of_true ⟨hkept.right, trivial⟩ trivial, fun _ => hkept⟩
  | bind fd addr refused ephemeral =>
    have hkept : RequestSafe s (.bind fd addr refused ephemeral) →
        TableKept (s.step (.bind fd addr refused ephemeral)) := by
      intro hsafe
      by_cases hopen : (s.socket fd).isSome = true
      · exact h.bind hopen hsafe
      · simp only [BoundState.step, if_neg hopen]
        exact h
    refine ⟨⟨requestSafe_of_right h, ?_⟩, hkept⟩
    intro hsafe
    refine ⟨(hkept hsafe).right, ?_⟩
    intro hopen src hdup
    exact boundTo_duplicated h hdup ((hsafe hopen).1 src hdup).2

theorem tableKept_init : TableKept BoundState.init := by
  refine ⟨?_, ?_, fun _ _ => rfl, ?_⟩
  · intro e he hused
    exact absurd (congrArg BoundInfo.fd (List.eq_of_mem_replicate he)) hused
  · apply List.pairwise_replicate.mpr
    right
    intro hused
    exact absurd rfl hused
  · intro fd sock hsock
    cases hsock

/-- **The table of bound addresses.**  Duplicates are made of the right descriptors, and the
entries stay right, in the runs whose requests are all safe, and in no others.
SOURCE: adapter/syscall/ff_socket_ops.c:37-147, 269-275 -/
theorem boundRun_iff (reqs : List BoundReq) :
    AllSteps BoundState.step RequestRight BoundState.init reqs ↔
      AllSteps BoundState.step RequestSafe BoundState.init reqs := by
  apply allSteps_iff (I := TableKept) (D := fun _ => True)
  · exact fun _ req hs _ hsafe => (requestRight_iff hs req).2 hsafe
  · exact fun _ req hs _ => (requestRight_iff hs req).1
  · exact tableKept_init
  · exact fun _ _ => trivial

/-- Two IPv6 addresses with one port and flow: a socket for the second becomes a duplicate of one that is
bound to the first. -/
theorem second_inet6_duplicated :
    ¬ AllSteps BoundState.step RequestRight BoundState.init
      [.socket 3, .bind 3 (.inet6 80 0 1 0) false ⟨1, by decide⟩, .socket 4,
        .bind 4 (.inet6 80 0 2 0) false ⟨1, by decide⟩] := by
  intro h
  exact absurd (h.2.2.2.1.2 (by decide) 3 (by decide)) (by decide)

end FStack.Analysis
