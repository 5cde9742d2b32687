import FStack.Model.MtSession
import FStack.Prelude.Monitored
import Mathlib.Data.List.Nodup

/-!
# The session that a datagram finds

The hash holds an action under the session id that it had when it was inserted, from its first initialisation until
its end.  `Reset` leaves it there with a pointer to a connection that it has given back, and a second initialisation
changes its session id without a new entry.

Whether an action that was `Reset` still is an initialised one can be read both ways; what follows is stated for
both, `after_reset` says which.
-/

set_option autoImplicit false

namespace FStack.Analysis

open FStack.Model FStack.Prelude

variable {s s' : SessionMgr} {after_reset : Bool}
variable {a : ℕ} {buff ntfy : Bool}

/-! ## What is expected -/

/-- An action that is alive and was initialised; if `after_reset` does not hold, it was not reset since. -/
def initialised (after_reset : Bool) (s : SessionMgr) (a : ℕ) : Bool :=
  (s.actions a).alive && ((s.actions a).opened || after_reset && (s.actions a).inited)

/-- After a step, `FindSession` finds the initialised actions by their session ids, no two of which are the same; a
datagram is stored in no connection but that of the action with its session id; and no entry is left of an action
that was destroyed. -/
structure SessionsRight (after_reset : Bool) (s : SessionMgr) (op : ActionStep) : Prop where
  found : ∀ id a, (s.step op).1.findSession id = some a ↔
    initialised after_reset (s.step op).1 a = true ∧ ((s.step op).1.actions a).session_id = id
  distinct : ∀ a b, initialised after_reset (s.step op).1 a = true → initialised after_reset (s.step op).1 b = true →
    ((s.step op).1.actions a).session_id = ((s.step op).1.actions b).session_id → a = b
  stored : ∀ id message c, op = .datagram id message → (s.step op).2 = some c →
    ∃ a, initialised after_reset s a = true ∧ (s.actions a).session_id = id ∧ (s.actions a).conn = some c
  gone : ∀ item ∈ (s.step op).1.hash_map, ((s.step op).1.actions item.1).alive = true

/-- The condition on the state before a step: an action that is in the hash is not initialised again, unless it
gets its old session id; the session id of a new one is not in use; the session of a datagram does not point to a
connection that the action has given back and that is in use, or deleted; and no initialised action is reset, where
that ends its being so. -/
def SessionsSafe (after_reset : Bool) (s : SessionMgr) : ActionStep → Prop
  | .init a buff ntfy =>
    (s.actions a).alive = true → (s.actions a).conn = none → buff = true → ntfy = true →
      if (s.actions a).session_flg then (s.actions a).session_id = s.nextSession
      else ∀ b < s.made, (s.actions b).alive = true → (s.actions b).inited = true →
        (s.actions b).session_id ≠ s.nextSession
  | .reset a => after_reset = false → (s.actions a).alive = true → (s.actions a).opened = false
  | .datagram id _ =>
    ∀ a ∈ s.findSession id, ∀ c ∈ (s.actions a).connection,
      (s.conns c).ntfy_obj = true ∨ c ∈ s.dead → (s.actions a).conn = some c
  | _ => True

/-! ## The hash -/

/-- What holds between steps: the hash has an item for every action that is alive and was initialised, under its
session id, and no others; and an action that is open has the connection that its session points to. -/
structure Hashed (after_reset : Bool) (s : SessionMgr) : Prop where
  item : ∀ e ∈ s.hash_map, (s.actions e.1).alive = true ∧ (s.actions e.1).inited = true ∧
    e.2 = (s.actions e.1).session_id
  nodup : (s.hash_map.map Prod.fst).Nodup
  flagged : ∀ a, (s.actions a).session_flg = true ↔ a ∈ s.hash_map.map Prod.fst
  listed : ∀ a, (s.actions a).alive = true → (s.actions a).inited = true → (s.actions a).session_flg = true
  distinct : ∀ a b, (s.actions a).session_flg = true → (s.actions b).session_flg = true →
    (s.actions a).session_id = (s.actions b).session_id → a = b
  opened : ∀ a, (s.actions a).opened = true → (s.actions a).alive = true ∧ (s.actions a).inited = true ∧
    ∃ c, (s.actions a).conn = some c ∧ (s.actions a).connection = some c
  ended : after_reset = false → ∀ a, (s.actions a).alive = true → (s.actions a).inited = true →
    (s.actions a).opened = true
  made : ∀ a, (s.actions a).alive = true → a < s.made

theorem init_hashed : Hashed after_reset {} where
  item _ he := nomatch he
  nodup := List.nodup_nil
  flagged _ := ⟨nofun, nofun⟩
  listed _ halive := nomatch halive
  distinct _ _ ha := nomatch ha
  opened _ ha := nomatch ha
  ended _ _ halive := nomatch halive
  made _ halive := nomatch halive

/-- Only the actions and the hash matter. -/
theorem Hashed.congr (hhashed : Hashed after_reset s) (hactions : s'.actions = s.actions)
    (hmap : s'.hash_map = s.hash_map) (hmade : s'.made = s.made) : Hashed after_reset s' := by
  obtain ⟨hitem, hnodup, hflagged, hlisted, hdistinct, hopened, hended, hmade'⟩ := hhashed
  constructor
  all_goals simp only [hactions, hmap, hmade]
  all_goals assumption

theorem Hashed.weaken (hhashed : Hashed after_reset s) : Hashed true s where
  item := hhashed.item
  nodup := hhashed.nodup
  flagged := hhashed.flagged
  listed := hhashed.listed
  distinct := hhashed.distinct
  opened := hhashed.opened
  ended hreset := nomatch hreset
  made := hhashed.made

/-- An item that is there belongs to an action with the flag. -/
theorem Hashed.flag_of_mem (hhashed : Hashed after_reset s) {e : ℕ × BitVec 32} (he : e ∈ s.hash_map) :
    (s.actions e.1).session_flg = true :=
  (hhashed.flagged e.1).mpr (List.mem_map_of_mem he)

/-- The item of an action with the flag. -/
theorem Hashed.mem_of_flag (hhashed : Hashed after_reset s) (hflag : (s.actions a).session_flg = true) :
    (a, (s.actions a).session_id) ∈ s.hash_map := by
  obtain ⟨⟨b, hash⟩, he, rfl⟩ := List.mem_map.mp ((hhashed.flagged a).mp hflag)
  have hid := (hhashed.item _ he).2.2
  dsimp only at hid ⊢
  rwa [← hid]

theorem Hashed.initialised_iff (hhashed : Hashed after_reset s) (a : ℕ) :
    initialised after_reset s a = true ↔ (s.actions a).session_flg = true := by
  unfold initialised
  rw [Bool.and_eq_true, Bool.or_eq_true, Bool.and_eq_true]
  constructor
  · rintro ⟨halive, hopened | ⟨-, hinited⟩⟩
    · exact hhashed.listed a halive (hhashed.opened a hopened).2.1
    · exact hhashed.listed a halive hinited
  · intro hflag
    obtain ⟨halive, hinited, -⟩ := hhashed.item _ (hhashed.mem_of_flag hflag)
    refine ⟨halive, ?_⟩
    cases hreset : after_reset with
    | true => exact Or.inr ⟨rfl, hinited⟩
    | false => exact Or.inl (hhashed.ended hreset a halive hinited)

/-- `FindSession` finds an action in the hash by the session id that it has. -/
theorem findSession_some {id : BitVec 32} (hfind : s.findSession id = some a) :
    (a, id) ∈ s.hash_map ∧ (s.actions a).session_id = id := by
  unfold SessionMgr.findSession at hfind
  obtain ⟨⟨b, hash⟩, hitem, rfl⟩ := Option.map_eq_some_iff.mp hfind
  have hmatch := List.find?_some hitem
  unfold SessionMgr.matchesId at hmatch
  obtain ⟨hhash, hid⟩ := of_decide_eq_true hmatch
  dsimp only at hhash hid ⊢
  exact ⟨hhash ▸ List.mem_of_find?_eq_some hitem, hid⟩

theorem Hashed.findSession_iff (hhashed : Hashed after_reset s) (id : BitVec 32) (a : ℕ) :
    s.findSession id = some a ↔ (s.actions a).session_flg = true ∧ (s.actions a).session_id = id := by
  constructor
  · intro hfind
    obtain ⟨hmem, hid⟩ := findSession_some hfind
    exact ⟨hhashed.flag_of_mem hmem, hid⟩
  · rintro ⟨hflag, hid⟩
    have hmem := hhashed.mem_of_flag hflag
    have hsome : (s.findSession id).isSome = true := by
      unfold SessionMgr.findSession
      rw [Option.isSome_map, List.find?_isSome]
      exact ⟨_, hmem, decide_eq_true ⟨hid, hid⟩⟩
    obtain ⟨b, hfind⟩ := Option.isSome_iff_exists.mp hsome
    obtain ⟨hmem', hid'⟩ := findSession_some hfind
    rw [hfind, hhashed.distinct b a (hhashed.flag_of_mem hmem') hflag (hid'.trans hid.symm)]

/-! ## Steps -/

theorem allocPtr_frame (s : SessionMgr) :
    s.allocPtr.1.actions = s.actions ∧ s.allocPtr.1.hash_map = s.hash_map ∧ s.allocPtr.1.made = s.made ∧
      s.allocPtr.1.curr_session = s.curr_session := by
  unfold SessionMgr.allocPtr
  split
  · exact ⟨rfl, rfl, rfl, rfl⟩
  · exact ⟨rfl, rfl, rfl, rfl⟩

/-- `InsertSession` of an action: its flag is set, and unless it was set it gets an item. -/
theorem insertSession_eq (s : SessionMgr) (a : ℕ) :
    s.insertSession a = { s with
      actions := Function.update s.actions a { s.actions a with session_flg := true }
      hash_map := if (s.actions a).session_flg ∨ s.hash_map.any (·.1 = a) then s.hash_map
        else (a, (s.actions a).session_id) :: s.hash_map } := by
  unfold SessionMgr.insertSession
  by_cases hflag : (s.actions a).session_flg = true
  · rw [if_pos hflag, if_pos (Or.inl hflag), ← hflag, Function.update_eq_self]
  · rw [if_neg hflag]
    unfold SessionMgr.hashInsert SessionMgr.setAction
    dsimp only
    rw [Function.update_self]
    by_cases hany : s.hash_map.any (·.1 = a) = true
    · rw [if_pos hany, if_pos (Or.inr hany)]
    · rw [if_neg hany, if_neg (not_or.mpr ⟨hflag, hany⟩)]

/-- `InitConnEnv` goes through: the action has a new connection and a new session id. -/
theorem initConnEnv_success (hconn : (s.actions a).conn = none) :
    (s.initConnEnv a true true).1.made = s.made ∧
      (s.initConnEnv a true true).1.hash_map =
        (if (s.actions a).session_flg ∨ s.hash_map.any (·.1 = a) then s.hash_map
          else (a, s.nextSession) :: s.hash_map) ∧
      ∃ c, (s.initConnEnv a true true).1.actions = Function.update s.actions a
        { s.actions a with
          conn := some c, connection := some c, session_id := s.nextSession, inited := true, opened := true
          session_flg := true } := by
  obtain ⟨hactions, hmap, hmade, hcurr⟩ := allocPtr_frame s
  unfold SessionMgr.initConnEnv
  rw [hconn, Option.isSome_none, if_neg Bool.false_ne_true]
  rcases halloc : s.allocPtr with ⟨s₁, c⟩
  rw [halloc] at hactions hmap hmade hcurr
  dsimp only at hactions hmap hmade hcurr ⊢
  rw [Bool.not_true, if_neg Bool.false_ne_true, if_neg Bool.false_ne_true, insertSession_eq]
  unfold SessionMgr.nextSession SessionMgr.setAction SessionMgr.setConn
  dsimp only
  simp only [Function.update_self, Function.update_idem, hactions, hmap, hmade, hcurr]
  exact ⟨trivial, trivial, c, rfl⟩

/-- `InitConnEnv` fails: the action may have a connection, which its session does not know. -/
theorem initConnEnv_failure (hfail : ¬(buff = true ∧ ntfy = true)) :
    (s.initConnEnv a buff ntfy).1.made = s.made ∧ (s.initConnEnv a buff ntfy).1.hash_map = s.hash_map ∧
      ∃ conn, (conn = (s.actions a).conn ∨ (s.actions a).conn = none) ∧
        (s.initConnEnv a buff ntfy).1.actions = Function.update s.actions a { s.actions a with conn := conn } := by
  obtain ⟨hactions, hmap, hmade, -⟩ := allocPtr_frame s
  unfold SessionMgr.initConnEnv
  cases hconn : (s.actions a).conn with
  | some c =>
    rw [Option.isSome_some, if_pos rfl]
    exact ⟨rfl, rfl, some c, Or.inl rfl, by rw [← hconn, Function.update_eq_self]⟩
  | none =>
    rw [Option.isSome_none, if_neg Bool.false_ne_true]
    rcases halloc : s.allocPtr with ⟨s₁, c⟩
    rw [halloc] at hactions hmap hmade
    dsimp only at hactions hmap hmade ⊢
    cases buff with
    | false =>
      rw [Bool.not_false, if_pos rfl]
      unfold SessionMgr.setAction
      dsimp only
      rw [hactions, hmap, hmade]
      exact ⟨rfl, rfl, some c, Or.inr rfl, rfl⟩
    | true =>
      cases ntfy with
      | false =>
        rw [Bool.not_true, if_neg Bool.false_ne_true, Bool.not_false, if_pos rfl]
        unfold SessionMgr.setConn SessionMgr.setAction
        dsimp only
        rw [hactions, hmap, hmade]
        exact ⟨rfl, rfl, some c, Or.inr rfl, rfl⟩
      | true => exact absurd ⟨rfl, rfl⟩ hfail

/-- An action changes, but not whether it is in the hash, nor its session id if it is there. -/
theorem Hashed.update (hhashed : Hashed after_reset s) (a : ℕ) (action : MtAction) {made : ℕ} (hmade : s.made ≤ made)
    (hlt : action.alive = true → a < made) (hflg : action.session_flg = (s.actions a).session_flg)
    (hlive : action.session_flg = true →
      action.alive = true ∧ action.inited = true ∧ action.session_id = (s.actions a).session_id)
    (hlisted : action.alive = true → action.inited = true → action.session_flg = true)
    (hopened : action.opened = true → action.alive = true ∧ action.inited = true ∧
      ∃ c, action.conn = some c ∧ action.connection = some c)
    (hended : after_reset = false → action.alive = true → action.inited = true → action.opened = true) :
    Hashed after_reset { s with actions := Function.update s.actions a action, made := made } := by
  have hsame : ∀ b, b ≠ a → Function.update s.actions a action b = s.actions b :=
    fun b hb => Function.update_of_ne hb _ _
  have hself : Function.update s.actions a action a = action := Function.update_self _ _ _
  have hflags : ∀ b, (Function.update s.actions a action b).session_flg = (s.actions b).session_flg := by
    intro b
    by_cases hb : b = a
    · rw [hb, hself, hflg]
    · rw [hsame b hb]
  have hids : ∀ b, (s.actions b).session_flg = true →
      (Function.update s.actions a action b).session_id = (s.actions b).session_id := by
    intro b hb'
    by_cases hb : b = a
    · subst hb
      rw [hself]
      exact (hlive (hflg.trans hb')).2.2
    · rw [hsame b hb]
  constructor
  case item =>
    intro e he
    dsimp only at he ⊢
    have hflag := hhashed.flag_of_mem he
    obtain ⟨halive, hinited, hid⟩ := hhashed.item e he
    refine ⟨?_, ?_, hid.trans (hids _ hflag).symm⟩
    all_goals
      by_cases hb : e.1 = a
      · rw [hb] at hflag ⊢
        rw [hself]
        first
          | exact (hlive (hflg.trans hflag)).1
          | exact (hlive (hflg.trans hflag)).2.1
      · rw [hsame _ hb]
        assumption
  case nodup => exact hhashed.nodup
  case flagged => exact fun b => by rw [hflags b]; exact hhashed.flagged b
  case listed =>
    intro b halive hinited
    dsimp only at halive hinited ⊢
    by_cases hb : b = a
    · subst hb
      rw [hself] at halive hinited ⊢
      exact hlisted halive hinited
    · rw [hsame b hb] at halive hinited ⊢
      exact hhashed.listed b halive hinited
  case distinct =>
    intro b b' hb hb' hid
    dsimp only at hb hb' hid
    rw [hflags] at hb hb'
    rw [hids b hb, hids b' hb'] at hid
    exact hhashed.distinct b b' hb hb' hid
  case opened =>
    intro b hb'
    dsimp only at hb' ⊢
    by_cases hb : b = a
    · subst hb
      rw [hself] at hb' ⊢
      exact hopened hb'
    · rw [hsame b hb] at hb' ⊢
      exact hhashed.opened b hb'
  case ended =>
    intro hreset b halive hinited
    dsimp only at halive hinited ⊢
    by_cases hb : b = a
    · subst hb
      rw [hself] at halive hinited ⊢
      exact hended hreset halive hinited
    · rw [hsame b hb] at halive hinited ⊢
      exact hhashed.ended hreset b halive hinited
  case made =>
    intro b halive
    dsimp only at halive ⊢
    by_cases hb : b = a
    · subst hb
      rw [hself] at halive
      exact hlt halive
    · rw [hsame b hb] at halive
      exact Nat.lt_of_lt_of_le (hhashed.made b halive) hmade

theorem construct_hashed (hhashed : Hashed after_reset s) : Hashed after_reset (s.step .construct).1 := by
  have hdead : (s.actions s.made).session_flg = false := by
    by_contra hflag
    rw [Bool.not_eq_false] at hflag
    have halive := (hhashed.item _ (hhashed.mem_of_flag hflag)).1
    exact absurd (hhashed.made _ halive) (Nat.lt_irrefl _)
  exact hhashed.update s.made _ (Nat.le_succ _) (fun _ => Nat.lt_succ_self _) hdead.symm nofun nofun nofun nofun

theorem reset_eq (s : SessionMgr) (a : ℕ) :
    (s.reset a).made = s.made ∧ (s.reset a).hash_map = s.hash_map ∧
      (s.reset a).actions = Function.update s.actions a
        { s.actions a with conn := none, opened := (s.actions a).opened && (s.actions a).conn.isNone } := by
  unfold SessionMgr.reset
  cases hconn : (s.actions a).conn with
  | none =>
    refine ⟨rfl, rfl, ?_⟩
    rw [Option.isNone_none, Bool.and_true]
    dsimp only
    rw [← hconn, Function.update_eq_self]
  | some c =>
    unfold SessionMgr.freeConnection SessionMgr.setAction SessionMgr.setConn
    rw [Option.isNone_some, Bool.and_false]
    dsimp only
    split
    · exact ⟨rfl, rfl, rfl⟩
    · exact ⟨rfl, rfl, rfl⟩

/-- An action without a connection is not open. -/
theorem Hashed.closed (hhashed : Hashed after_reset s) (a : ℕ) :
    ((s.actions a).opened && (s.actions a).conn.isNone) = false := by
  cases hopened : (s.actions a).opened with
  | false => rfl
  | true =>
    obtain ⟨-, -, c, hconn, -⟩ := hhashed.opened a hopened
    rw [hconn]
    rfl

theorem reset_hashed (hhashed : Hashed after_reset s)
    (hsafe : after_reset = false → (s.actions a).alive = true → (s.actions a).opened = false) :
    Hashed after_reset (s.reset a) := by
  obtain ⟨hmade, hmap, hactions⟩ := reset_eq s a
  refine (hhashed.update a
    { s.actions a with conn := none, opened := (s.actions a).opened && (s.actions a).conn.isNone }
    (Nat.le_refl s.made) (hhashed.made a) ?_ ?_ (hhashed.listed a) ?_ ?_).congr hactions hmap hmade
  · rfl
  · intro hflag
    obtain ⟨halive, hinited, -⟩ := hhashed.item _ (hhashed.mem_of_flag hflag)
    exact ⟨halive, hinited, rfl⟩
  · intro hopened
    dsimp only at hopened
    rw [hhashed.closed a] at hopened
    cases hopened
  · intro hreset halive hinited
    have hopened := hhashed.ended hreset a halive hinited
    rw [hsafe hreset halive] at hopened
    cases hopened

theorem initFailure_hashed (hhashed : Hashed after_reset s) (a : ℕ) (hfail : ¬(buff = true ∧ ntfy = true)) :
    Hashed after_reset (s.initConnEnv a buff ntfy).1 := by
  obtain ⟨hmade, hmap, conn, hconn, hactions⟩ := initConnEnv_failure (s := s) (a := a) hfail
  refine (hhashed.update a { s.actions a with conn := conn } (Nat.le_refl s.made) (hhashed.made a) ?_ ?_
    (hhashed.listed a) ?_ fun hreset => hhashed.ended hreset a).congr hactions hmap hmade
  · rfl
  · intro hflag
    obtain ⟨halive, hinited, -⟩ := hhashed.item _ (hhashed.mem_of_flag hflag)
    exact ⟨halive, hinited, rfl⟩
  · intro hopened
    obtain ⟨halive, hinited, c, hc, hconnection⟩ := hhashed.opened a hopened
    refine ⟨halive, hinited, c, ?_, hconnection⟩
    rcases hconn with rfl | hnone
    · exact hc
    · rw [hnone] at hc
      cases hc

/-- An action that is initialised for the first time gets an item. -/
theorem inserted_hashed (hhashed : Hashed after_reset s) {c : ℕ} {id : BitVec 32} (halive : (s.actions a).alive = true)
    (hflag : (s.actions a).session_flg = false)
    (hfresh : ∀ b < s.made, (s.actions b).alive = true → (s.actions b).inited = true → (s.actions b).session_id ≠ id) :
    Hashed after_reset { s with
      actions := Function.update s.actions a { s.actions a with
        conn := some c, connection := some c, session_id := id, inited := true, opened := true, session_flg := true }
      hash_map := (a, id) :: s.hash_map } := by
  have hnew : ∀ b, (s.actions b).session_flg = true → b ≠ a := by
    rintro b hb rfl
    rw [hflag] at hb
    cases hb
  have hold : ∀ b, (s.actions b).session_flg = true → (s.actions b).session_id ≠ id := by
    intro b hb
    obtain ⟨hlive, hinited, -⟩ := hhashed.item _ (hhashed.mem_of_flag hb)
    exact hfresh b (hhashed.made b hlive) hlive hinited
  constructor
  case item =>
    intro e he
    dsimp only at he ⊢
    rcases List.mem_cons.mp he with rfl | he
    · rw [Function.update_self]
      exact ⟨halive, rfl, rfl⟩
    · rw [Function.update_of_ne (hnew _ (hhashed.flag_of_mem he))]
      exact hhashed.item e he
  case nodup =>
    refine List.nodup_cons.mpr ⟨fun hmem => ?_, hhashed.nodup⟩
    rw [(hhashed.flagged a).mpr hmem] at hflag
    cases hflag
  case flagged =>
    intro b
    dsimp only
    rw [List.map_cons, List.mem_cons, Function.update_apply]
    split
    · next hb => exact ⟨fun _ => Or.inl hb, fun _ => rfl⟩
    · next hb => exact (hhashed.flagged b).trans (or_iff_right hb).symm
  case listed =>
    intro b
    dsimp only
    rw [Function.update_apply]
    split
    · exact fun _ _ => rfl
    · exact hhashed.listed b
  case distinct =>
    intro b b'
    dsimp only
    rw [Function.update_apply, Function.update_apply]
    split
    · next hb =>
      split
      · next hb' => exact fun _ _ _ => hb.trans hb'.symm
      · exact fun _ hb' hid => absurd hid.symm (hold b' hb')
    · split
      · exact fun hb _ hid => absurd hid (hold b hb)
      · exact hhashed.distinct b b'
  case opened =>
    intro b
    dsimp only
    rw [Function.update_apply]
    split
    · exact fun _ => ⟨halive, rfl, c, rfl, rfl⟩
    · exact hhashed.opened b
  case ended =>
    intro hreset b
    dsimp only
    rw [Function.update_apply]
    split
    · exact fun _ _ => rfl
    · exact hhashed.ended hreset b
  case made =>
    intro b
    dsimp only
    rw [Function.update_apply]
    split
    · next hb =>
      rw [hb]
      exact fun _ => hhashed.made a halive
    · exact hhashed.made b

/-- No item is of an action without the flag. -/
theorem Hashed.any_false (hhashed : Hashed after_reset s) (hflag : (s.actions a).session_flg = false) :
    s.hash_map.any (·.1 = a) = false := by
  rw [List.any_eq_false]
  intro e he heq
  have hin := hhashed.flag_of_mem he
  rw [of_decide_eq_true heq, hflag] at hin
  cases hin

theorem initSuccess_hashed (hhashed : Hashed after_reset s) (halive : (s.actions a).alive = true)
    (hconn : (s.actions a).conn = none)
    (hsafe : if (s.actions a).session_flg then (s.actions a).session_id = s.nextSession
      else ∀ b < s.made, (s.actions b).alive = true → (s.actions b).inited = true →
        (s.actions b).session_id ≠ s.nextSession) :
    Hashed after_reset (s.initConnEnv a true true).1 := by
  obtain ⟨hmade, hmap, c, hactions⟩ := initConnEnv_success hconn
  cases hflag : (s.actions a).session_flg with
  | true =>
    rw [hflag, if_pos rfl] at hsafe
    rw [if_pos (Or.inl hflag)] at hmap
    refine (hhashed.update a _ (Nat.le_refl s.made) (fun _ => hhashed.made a halive) hflag.symm ?_ (fun _ _ => rfl)
      ?_ fun _ _ _ => rfl).congr hactions hmap hmade
    · exact fun _ => ⟨halive, rfl, hsafe.symm⟩
    · exact fun _ => ⟨halive, rfl, c, rfl, rfl⟩
  | false =>
    have hany := hhashed.any_false hflag
    rw [hflag, if_neg Bool.false_ne_true] at hsafe
    rw [hflag, hany, if_neg (by rintro (h | h) <;> cases h)] at hmap
    exact (inserted_hashed hhashed halive hflag hsafe).congr hactions hmap hmade

theorem destroy_eq (s : SessionMgr) (a : ℕ) :
    (s.destroy a).made = s.made ∧
      (s.destroy a).hash_map = (if (s.actions a).session_flg then s.hash_map.eraseP (s.matchesId (s.actions a).session_id)
        else s.hash_map) ∧
      (s.destroy a).actions = Function.update s.actions a { s.actions a with
        alive := false, session_flg := false, conn := none
        opened := (s.actions a).opened && (s.actions a).conn.isNone } := by
  obtain ⟨hmade, hmap, hactions⟩ := reset_eq s a
  have hself : (s.reset a).actions a = { s.actions a with
      conn := none, opened := (s.actions a).opened && (s.actions a).conn.isNone } := by
    rw [hactions, Function.update_self]
  have hid : ∀ b, ((s.reset a).actions b).session_id = (s.actions b).session_id := by
    intro b
    rw [hactions, Function.update_apply]
    split
    · next hb => rw [hb]
    · rfl
  have hmatch : (s.reset a).matchesId (s.actions a).session_id = s.matchesId (s.actions a).session_id := by
    funext e
    unfold SessionMgr.matchesId
    rw [hid]
  unfold SessionMgr.destroy SessionMgr.removeSession SessionMgr.setAction
  dsimp only
  rw [hself]
  dsimp only
  rw [hmatch]
  split
  · dsimp only
    rw [hself, hmade, hmap, hactions, Function.update_idem]
    exact ⟨rfl, rfl, rfl⟩
  · rw [hself, hmade, hmap, hactions, Function.update_idem]
    exact ⟨rfl, rfl, rfl⟩

/-- Of the items, only that of the action is removed. -/
theorem Hashed.erase_iff (hhashed : Hashed after_reset s) (hflag : (s.actions a).session_flg = true) (e : ℕ × BitVec 32)
    :
    e ∈ s.hash_map.eraseP (s.matchesId (s.actions a).session_id) ↔ e ∈ s.hash_map ∧ e.1 ≠ a := by
  have hmem := hhashed.mem_of_flag hflag
  have hmatch : s.matchesId (s.actions a).session_id (a, (s.actions a).session_id) = true :=
    decide_eq_true ⟨rfl, rfl⟩
  obtain ⟨e', before, after, -, hfound, hsplit, herased⟩ := List.exists_of_eraseP hmem hmatch
  have hmem' : e' ∈ s.hash_map := by
    rw [hsplit]
    exact List.mem_append_right _ List.mem_cons_self
  have he' : e'.1 = a := by
    unfold SessionMgr.matchesId at hfound
    exact hhashed.distinct _ _ (hhashed.flag_of_mem hmem') hflag (of_decide_eq_true hfound).2
  have hnodup := hhashed.nodup
  rw [hsplit, List.map_append, List.map_cons, he', List.nodup_middle, List.nodup_cons, ← List.map_append] at hnodup
  rw [herased, hsplit, List.mem_append, List.mem_append, List.mem_cons]
  constructor
  · intro he
    refine ⟨he.imp_right Or.inr, fun heq => hnodup.1 ?_⟩
    exact List.mem_map.mpr ⟨e, List.mem_append.mpr he, heq⟩
  · rintro ⟨he | rfl | he, hne⟩
    · exact Or.inl he
    · exact absurd he' hne
    · exact Or.inr he

theorem destroy_hashed (hhashed : Hashed after_reset s) (a : ℕ) : Hashed after_reset (s.destroy a) := by
  obtain ⟨hmade, hmap, hactions⟩ := destroy_eq s a
  have hitems : ∀ e, e ∈ (s.destroy a).hash_map ↔ e ∈ s.hash_map ∧ e.1 ≠ a := by
    intro e
    rw [hmap]
    split
    · next hflag => exact hhashed.erase_iff hflag e
    · next hflag =>
      refine ⟨fun he => ⟨he, fun heq => hflag ?_⟩, And.left⟩
      rw [← heq]
      exact hhashed.flag_of_mem he
  have hnodup : ((s.destroy a).hash_map.map Prod.fst).Nodup := by
    rw [hmap]
    split
    · exact hhashed.nodup.sublist (List.eraseP_sublist.map Prod.fst)
    · exact hhashed.nodup
  have hsame : ∀ b, b ≠ a → (s.destroy a).actions b = s.actions b := by
    intro b hb
    rw [hactions, Function.update_of_ne hb]
  have hself := congrFun hactions a
  rw [Function.update_self] at hself
  have hflag : ∀ b, ((s.destroy a).actions b).session_flg = true ↔ (s.actions b).session_flg = true ∧ b ≠ a := by
    intro b
    by_cases hb : b = a
    · subst hb
      rw [hself]
      exact ⟨nofun, fun h => absurd rfl h.2⟩
    · rw [hsame b hb]
      exact (and_iff_left hb).symm
  constructor
  case item =>
    intro e he
    obtain ⟨hmem, hne⟩ := (hitems e).mp he
    rw [hsame _ hne]
    exact hhashed.item e hmem
  case nodup => exact hnodup
  case flagged =>
    intro b
    rw [hflag, hhashed.flagged, List.mem_map, List.mem_map]
    constructor
    · rintro ⟨⟨e, he, rfl⟩, hne⟩
      exact ⟨e, (hitems e).mpr ⟨he, hne⟩, rfl⟩
    · rintro ⟨e, he, rfl⟩
      obtain ⟨hmem, hne⟩ := (hitems e).mp he
      exact ⟨⟨e, hmem, rfl⟩, hne⟩
  case listed =>
    intro b halive hinited
    by_cases hb : b = a
    · subst hb
      rw [hself] at halive
      cases halive
    · rw [hsame b hb] at halive hinited ⊢
      exact hhashed.listed b halive hinited
  case distinct =>
    intro b b' hb hb' hid
    obtain ⟨hb, hne⟩ := (hflag b).mp hb
    obtain ⟨hb', hne'⟩ := (hflag b').mp hb'
    rw [hsame b hne, hsame b' hne'] at hid
    exact hhashed.distinct b b' hb hb' hid
  case opened =>
    intro b hopened
    by_cases hb : b = a
    · subst hb
      rw [hself] at hopened
      dsimp only at hopened
      rw [hhashed.closed b] at hopened
      cases hopened
    · rw [hsame b hb] at hopened ⊢
      exact hhashed.opened b hopened
  case ended =>
    intro hreset b halive hinited
    by_cases hb : b = a
    · subst hb
      rw [hself] at halive
      cases halive
    · rw [hsame b hb] at halive hinited ⊢
      exact hhashed.ended hreset b halive hinited
  case made =>
    intro b halive
    rw [hmade]
    by_cases hb : b = a
    · subst hb
      rw [hself] at halive
      cases halive
    · rw [hsame b hb] at halive
      exact hhashed.made b halive

theorem datagram_hashed (hhashed : Hashed after_reset s) (id : BitVec 32) (message : List UInt8) :
    Hashed after_reset (s.inputNotify id message).1 := by
  unfold SessionMgr.inputNotify
  split
  · exact hhashed
  split
  · exact hhashed
  split
  · exact hhashed.congr rfl rfl rfl
  · exact hhashed

theorem step_hashed (hhashed : Hashed after_reset s) (op : ActionStep) (hsafe : SessionsSafe after_reset s op) :
    Hashed after_reset (s.step op).1 := by
  cases op with
  | construct => exact construct_hashed hhashed
  | init a buff ntfy =>
    unfold SessionMgr.step
    dsimp only
    split
    · next halive =>
      by_cases hok : buff = true ∧ ntfy = true
      · obtain ⟨rfl, rfl⟩ := hok
        cases hconn : (s.actions a).conn with
        | none => exact initSuccess_hashed hhashed halive hconn (hsafe halive hconn rfl rfl)
        | some c =>
          unfold SessionMgr.initConnEnv
          rw [hconn, Option.isSome_some, if_pos rfl]
          exact hhashed
      · exact initFailure_hashed hhashed a hok
    · exact hhashed
  | reset a =>
    unfold SessionMgr.step
    dsimp only
    split
    · exact reset_hashed hhashed hsafe
    · exact hhashed
  | destroy a =>
    unfold SessionMgr.step
    dsimp only
    split
    · exact destroy_hashed hhashed a
    · exact hhashed
  | datagram id message => exact datagram_hashed hhashed id message

/-! ## Runs -/

/-- Under the condition, a step does what is expected. -/
theorem step_sessionsRight (hhashed : Hashed after_reset s) {op : ActionStep} (hsafe : SessionsSafe after_reset s op) :
    SessionsRight after_reset s op := by
  have hafter := step_hashed hhashed op hsafe
  constructor
  case found =>
    intro id a
    rw [hafter.findSession_iff, hafter.initialised_iff]
  case distinct =>
    intro a b ha hb hid
    rw [hafter.initialised_iff] at ha hb
    exact hafter.distinct a b ha hb hid
  case stored =>
    rintro id message c rfl hstored
    unfold SessionMgr.step SessionMgr.inputNotify at hstored
    dsimp only at hstored
    split at hstored
    · cases hstored
    next a hfind =>
    split at hstored
    · cases hstored
    next c' hconnection =>
    split at hstored
    · next huse =>
      obtain rfl := Option.some.inj hstored
      obtain ⟨hflag, hid⟩ := (hhashed.findSession_iff id a).mp hfind
      exact ⟨a, (hhashed.initialised_iff a).mpr hflag, hid, hsafe a hfind c' hconnection huse⟩
    · cases hstored
  case gone => exact fun item hitem => (hafter.item item hitem).1

/-- An initialisation that goes through as expected meets the condition. -/
theorem init_safe_of_right (hhashed : Hashed after_reset s) (hright : SessionsRight after_reset s (.init a buff ntfy)) :
    SessionsSafe after_reset s (.init a buff ntfy) := by
  rintro halive hconn rfl rfl
  obtain ⟨-, hmap, c, hactions⟩ := initConnEnv_success hconn
  have hstep : (s.step (.init a true true)).1 = (s.initConnEnv a true true).1 := by
    unfold SessionMgr.step
    dsimp only
    rw [if_pos halive]
  obtain ⟨hfound, hdistinct, -, -⟩ := hright
  rw [hstep] at hfound hdistinct
  have hself := congrFun hactions a
  rw [Function.update_self] at hself
  have hinit : initialised after_reset (s.initConnEnv a true true).1 a = true := by
    unfold initialised
    rw [hself]
    dsimp only
    rw [halive]
    rfl
  have hid : ((s.initConnEnv a true true).1.actions a).session_id = s.nextSession := by rw [hself]
  split
  · next hflag =>
    -- the item of the action is the old one, and so is the session id that is found
    rw [if_pos (Or.inl hflag)] at hmap
    obtain ⟨hmem, -⟩ := findSession_some ((hfound s.nextSession a).mpr ⟨hinit, hid⟩)
    rw [hmap] at hmem
    exact (hhashed.item _ hmem).2.2.symm
  · next hflag =>
    intro b _ hlive hinited heq
    have hb : b ≠ a := by
      rintro rfl
      exact hflag (hhashed.listed b hlive hinited)
    have hsame := congrFun hactions b
    rw [Function.update_of_ne hb] at hsame
    have hinitb : initialised after_reset (s.initConnEnv a true true).1 b = true := by
      have hbefore := (hhashed.initialised_iff b).mpr (hhashed.listed b hlive hinited)
      unfold initialised at hbefore ⊢
      rwa [hsame]
    exact hb (hdistinct b a hinitb hinit (by rw [hsame, heq, hid]))

/-- A step does what is expected exactly under the condition. -/
theorem sessionsRight_iff (hhashed : Hashed after_reset s) (op : ActionStep) :
    SessionsRight after_reset s op ↔ SessionsSafe after_reset s op := by
  refine ⟨fun hright => ?_, step_sessionsRight hhashed⟩
  cases op with
  | construct => trivial
  | init a buff ntfy => exact init_safe_of_right hhashed hright
  | reset a =>
    rintro rfl halive
    by_contra hopened
    rw [Bool.not_eq_false] at hopened
    obtain ⟨-, hinited, c, hconn, -⟩ := hhashed.opened a hopened
    obtain ⟨-, -, hactions⟩ := reset_eq s a
    have hstep : (s.step (.reset a)).1 = s.reset a := by
      unfold SessionMgr.step
      dsimp only
      rw [if_pos halive]
    have hself := congrFun hactions a
    rw [Function.update_self] at hself
    have hfind : (s.reset a).findSession (s.actions a).session_id = some a := by
      have hafter : Hashed true (s.reset a) := reset_hashed hhashed.weaken nofun
      rw [hafter.findSession_iff, hself]
      exact ⟨hhashed.listed a halive hinited, rfl⟩
    have hinit := ((hright.found (s.actions a).session_id a).mp (by rw [hstep]; exact hfind)).1
    rw [hstep] at hinit
    unfold initialised at hinit
    rw [hself, hconn] at hinit
    dsimp only at hinit
    rw [Option.isNone_some, Bool.and_false, Bool.false_and, Bool.or_false, Bool.and_false] at hinit
    cases hinit
  | destroy a => trivial
  | datagram id message =>
    intro a hfind c hconnection huse
    have hstored : (s.step (.datagram id message)).2 = some c := by
      unfold SessionMgr.step SessionMgr.inputNotify
      dsimp only
      rw [Option.mem_def.mp hfind]
      dsimp only
      rw [Option.mem_def.mp hconnection]
      dsimp only
      rw [if_pos huse]
    obtain ⟨b, hinit, hid, hconn⟩ := hright.stored id message c rfl hstored
    have hb := (hhashed.findSession_iff id b).mpr ⟨(hhashed.initialised_iff b).mp hinit, hid⟩
    rw [Option.mem_def.mp hfind] at hb
    rwa [Option.some.inj hb]

/-- INTERNAL: in both readings of what an initialised action is, a run of actions and datagrams keeps the sessions
right at every step exactly when no action in the hash is initialised again with another session id, no session id
comes around to one in use, no datagram finds a connection that its action has given back, and nothing is reset where
that ends an action's being initialised. -/
theorem sessions_right_iff (after_reset : Bool) (ops : List ActionStep) :
    AllSteps (fun s op => (s.step op).1) (SessionsRight after_reset) {} ops ↔
      AllSteps (fun s op => (s.step op).1) (SessionsSafe after_reset) {} ops :=
  allSteps_iff (I := Hashed after_reset) (D := fun _ => True)
    (fun _ op hhashed _ hsafe => step_hashed hhashed op hsafe)
    (fun _ op hhashed _ => sessionsRight_iff hhashed op) init_hashed fun _ _ => trivial

/-- An action that is initialised again after `Reset` is not found under its new session id; and even before, it is
found although it has no connection. -/
theorem reinitialised_not_found :
    (¬AllSteps (fun s op => (s.step op).1) (SessionsRight true) {}
      [.construct, .init 0 true true, .reset 0, .init 0 true true]) ∧
    ¬AllSteps (fun s op => (s.step op).1) (SessionsRight false) {} [.construct, .init 0 true true, .reset 0] := by
  constructor
  · rintro ⟨-, -, -, hright, -⟩
    exact absurd ((hright.found 2 0).mpr (by decide)) (by decide)
  · rintro ⟨-, -, hright, -⟩
    exact absurd ((hright.found 1 0).mp (by decide)).1 (by decide)

end FStack.Analysis
