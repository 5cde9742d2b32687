import FStack.Model.NetSession
import FStack.Prelude.Monitored

/-!
# A call gets its own response

The session hash and the lists of the links are left right at the end of every call.  The response and the error
code of a handler, however, outlive a call: only a call that begins without them, and whose response is dispatched
while it is in `WaitRecv`, is sure to be answered for itself.
-/

set_option autoImplicit false

namespace FStack.Analysis

open FStack.Model FStack.Prelude

variable {h : NetHandler}
variable {h' : NetHandler} {key : SessionKey} {r : NetHandler × Option RcType} {op : SessionStep}

/-! ## What is expected -/

/-- Whether a link failed in the call that a step belongs to. -/
def failedSince (h : NetHandler) : SessionStep → Bool
  | .call _ _ _ _ _ => false
  | _ => h.failed

/-- A call that returns 0 has a message that was dispatched in it, with its session id; what it returns does not
depend on the error code of an earlier call; the handler does not sleep in `WaitRecv` when a message was dispatched
to it; and at the end it is in no list and not in the session hash. -/
structure SendRecvRight (h : NetHandler) (op : SessionStep) : Prop where
  answered : (h.step op).2 = some .success → ∃ m ∈ (h.step op).1.dispatched,
    m.1 = (h.step op).1.key.sid ∧ (h.step op).1.rsp_buff = some m.2
  own : failedSince h op = false → (h.step op).2 = ({ h with err_no := .success }.step op).2
  prompt : (h.step op).1.phase = .recv → (h.step op).1.woken = false → (h.step op).1.dispatched = []
  left : (h.step op).2.isSome = true →
    (h.step op).1.places = [] ∧ ∀ e ∈ (h.step op).1.session_hash, e.1 = false

/-- The condition on a step: a call begins with no response stored and no error code, and a message is dispatched to
the handler only while its thread is in `WaitRecv`. -/
def SendRecvSafe (h : NetHandler) : SessionStep → Prop
  | .call _ _ _ _ _ => h.phase = .none → h.rsp_buff = none ∧ h.err_no = .success
  | .dispatch key _ => (h.findNetItem key).any Prod.fst = true → h.phase = .recv
  | _ => True

instance (h : NetHandler) : DecidablePred (SendRecvSafe h)
  | .call _ _ _ _ _ => inferInstanceAs (Decidable (h.phase = .none → h.rsp_buff = none ∧ h.err_no = .success))
  | .dispatch key _ => inferInstanceAs (Decidable ((h.findNetItem key).any Prod.fst = true → h.phase = .recv))
  | .resume _ | .connected _ | .sent _ _ | .destroy _ _ | .regist _ | .unregist _ => inferInstanceAs (Decidable True)

/-! ## Lists and the session hash -/

/-- A handler is in the list that it knows of, and in no other. -/
def Linked (h : NetHandler) : Prop :=
  (h.conn = none ∧ h.in_list = none ∧ h.places = []) ∨
    ∃ link list, h.conn = some link ∧ h.in_list = some list ∧ h.places = [(link, list)]

/-- No two entries of the session hash have the same key, and the handler has an entry just when it says so. -/
structure Registered (h : NetHandler) : Prop where
  nodup : (h.session_hash.map Prod.snd).Nodup
  own : ∀ e ∈ h.session_hash, e.1 = true → h.in_session = true ∧ e.2 = h.key
  entry : h.in_session = true → (true, h.key) ∈ h.session_hash

/-- What holds at every moment: of the lists, and of the session hash. -/
structure Placed (h : NetHandler) : Prop where
  linked : Linked h
  registered : Registered h

/-- A handler in no session has no entry. -/
theorem Registered.absent (hreg : Registered h) (hsession : h.in_session = false) :
    ∀ e ∈ h.session_hash, e.1 = false := by
  intro e he
  by_contra hown
  rw [Bool.not_eq_false] at hown
  have hin := (hreg.own e he hown).1
  rw [hsession] at hin
  cases hin

theorem Linked.places_nil (hlinked : Linked h) (hconn : h.conn = none) : h.places = [] := by
  rcases hlinked with ⟨-, -, hplaces⟩ | ⟨link, list, hsome, -, -⟩
  · exact hplaces
  · rw [hconn] at hsome
    cases hsome

theorem detachConn_linked (hlinked : Linked h) :
    h.detachConn = { h with in_list := none, places := [] } := by
  cases h
  dsimp only [Linked] at hlinked
  rcases hlinked with ⟨rfl, rfl, rfl⟩ | ⟨link, list, rfl, rfl, rfl⟩
  · rfl
  · unfold NetHandler.detachConn
    dsimp only
    rw [List.erase_cons_head]

/-- A handler that is linked is then in the new list only; without a link nothing happens. -/
theorem switchTo_link (hlinked : Linked h) (list : LinkList) :
    h.switchTo list = match h.conn with
      | none => h
      | some link => { h with in_list := some list, places := [(link, list)] } := by
  rcases h with ⟨_, _, _, _, _, conn, _, _, _, _, _, _, _⟩
  unfold NetHandler.switchTo
  cases conn with
  | none => rfl
  | some link =>
    dsimp only
    rw [detachConn_linked hlinked]
    rfl

theorem switchTo_linked (hlinked : Linked h) (list : LinkList) :
    Linked (h.switchTo list) ∧
      ∃ in_list places, h.switchTo list = { h with in_list := in_list, places := places } := by
  rw [switchTo_link hlinked]
  split
  · exact ⟨hlinked, h.in_list, h.places, rfl⟩
  · next link hconn => exact ⟨Or.inr ⟨link, list, hconn, rfl, rfl⟩, some list, [(link, list)], rfl⟩

theorem unlink_linked (hlinked : Linked h) :
    h.unlink = { h with conn := none, in_list := none, places := [] } := by
  unfold NetHandler.unlink
  rw [detachConn_linked hlinked]

/-- Neither the lists nor the response matter to the session hash. -/
theorem Registered.congr (hreg : Registered h) (hhash : h'.session_hash = h.session_hash) (hkey : h'.key = h.key)
    (hsession : h'.in_session = h.in_session) : Registered h' :=
  ⟨hhash ▸ hreg.nodup, hhash ▸ hkey ▸ hsession ▸ hreg.own, hhash ▸ hkey ▸ hsession ▸ hreg.entry⟩

theorem switchTo_placed (hplaced : Placed h) (list : LinkList) : Placed (h.switchTo list) := by
  obtain ⟨hlinked, in_list, places, heq⟩ := switchTo_linked hplaced.linked list
  refine ⟨hlinked, hplaced.registered.congr ?_ ?_ ?_⟩
  all_goals rw [heq]

/-- An entry that is found is in the session hash and has the key. -/
theorem findNetItem_some {e : Bool × SessionKey} (hfind : h.findNetItem key = some e) :
    e ∈ h.session_hash ∧ e.2 = key := by
  refine ⟨List.mem_of_find?_eq_some hfind, ?_⟩
  have hkey := List.find?_some hfind
  exact of_decide_eq_true hkey

/-- With no two entries of one key, the entry that is found is the one that is there. -/
theorem findNetItem_mem (hreg : Registered h) {e : Bool × SessionKey} (he : e ∈ h.session_hash) :
    h.findNetItem e.2 = some e := by
  have hsome : (h.session_hash.find? (·.2 = e.2)).isSome = true := by
    rw [List.find?_isSome]
    exact ⟨e, he, decide_eq_true rfl⟩
  obtain ⟨e', hfind⟩ := Option.isSome_iff_exists.mp hsome
  obtain ⟨hmem, hkey⟩ := findNetItem_some hfind
  have heq : e' = e := List.inj_on_of_nodup_map hreg.nodup hmem he hkey
  unfold NetHandler.findNetItem
  rw [hfind, heq]

/-- The keys that are left when an entry is erased are still different. -/
theorem erase_keys_nodup (hreg : Registered h) (e : Bool × SessionKey) :
    ((h.session_hash.erase e).map Prod.snd).Nodup :=
  hreg.nodup.sublist (List.erase_sublist.map Prod.snd)

/-- `UnRegistSession` removes the entry of the handler. -/
theorem unRegistSession_registered (hreg : Registered h) :
    Registered h.unRegistSession ∧ h.unRegistSession.in_session = false ∧
      ∃ hash, h.unRegistSession = { h with session_hash := hash, in_session := false } := by
  unfold NetHandler.unRegistSession
  cases hsession : h.in_session with
  | false =>
    rw [if_neg Bool.false_ne_true]
    exact ⟨hreg, hsession, h.session_hash, by rw [← hsession]⟩
  | true =>
    rw [if_pos rfl]
    have hentry := hreg.entry hsession
    have hfind : h.findNetItem h.key = some (true, h.key) := findNetItem_mem hreg hentry
    unfold NetHandler.removeNetItem
    rw [hfind]
    refine ⟨⟨erase_keys_nodup hreg _, ?_, ?_⟩, rfl, _, rfl⟩
    · intro e he hown
      exfalso
      have hmem := List.mem_of_mem_erase he
      have hkey := (hreg.own e hmem hown).2
      have heq : e = (true, h.key) := Prod.ext hown hkey
      have hnodup := hreg.nodup.of_map
      exact (List.Nodup.mem_erase_iff hnodup).mp he |>.1 heq
    · intro hin
      cases hin

/-! ## The parts of a call -/

/-- What a part of a call makes of the handler: it leaves the response, the error code, the key and what the call has
met, and either ends the call, in no list and in no session, or sleeps. -/
structure CallPart (h : NetHandler) (r : NetHandler × Option RcType) : Prop where
  placed : Placed r.1
  rsp_buff : r.1.rsp_buff = h.rsp_buff
  err_no : r.1.err_no = h.err_no
  dispatched : r.1.dispatched = h.dispatched
  failed : r.1.failed = h.failed
  key : r.1.key = h.key
  ended : r.2.isSome = true → r.1.phase = .none ∧ r.1.conn = none ∧ r.1.in_session = false
  asleep : r.2 = none → r.1.phase ≠ .none ∧ r.1.in_session = true

theorem exit_part (hplaced : Placed h) (ret : RcType) : CallPart h (h.exit ret) := by
  have hunlink := unlink_linked hplaced.linked
  have hreg : Registered h.unlink := by
    refine hplaced.registered.congr ?_ ?_ ?_
    all_goals rw [hunlink]
  obtain ⟨hregistered, hsession, hash, heq⟩ := unRegistSession_registered hreg
  rw [hunlink] at heq
  constructor
  case placed =>
    refine ⟨Or.inl ⟨?_, ?_, ?_⟩, hregistered.congr rfl rfl rfl⟩
    all_goals unfold NetHandler.exit; rw [hunlink, heq]
  case rsp_buff | err_no | dispatched | failed | key => unfold NetHandler.exit; rw [hunlink, heq]
  case ended =>
    intro _
    refine ⟨rfl, ?_, hsession⟩
    unfold NetHandler.exit
    rw [hunlink, heq]
  case asleep => intro hnone; cases hnone

theorem sleep_part (hplaced : Placed h) (hsession : h.in_session = true) (list : LinkList) {phase : CallPhase}
    (hphase : phase ≠ .none) : CallPart h (h.sleep list phase) := by
  have hswitch := switchTo_placed hplaced list
  obtain ⟨-, in_list, places, heq⟩ := switchTo_linked hplaced.linked list
  constructor
  case placed => exact ⟨hswitch.linked, hswitch.registered.congr rfl rfl rfl⟩
  case rsp_buff | err_no | dispatched | failed | key => unfold NetHandler.sleep; rw [heq]
  case ended => intro hsome; cases hsome
  case asleep =>
    intro _
    refine ⟨hphase, ?_⟩
    unfold NetHandler.sleep
    rw [heq]
    exact hsession

theorem waitRecv_part (hplaced : Placed h) (hsession : h.in_session = true) : CallPart h h.waitRecv := by
  unfold NetHandler.waitRecv
  split
  · exact exit_part hplaced _
  · exact sleep_part hplaced hsession _ (by decide)

/-- The length of the request does not matter to the lists and to the session hash. -/
theorem Placed.setLen (hplaced : Placed h) (len : ℕ) : Placed { h with req_len := len } :=
  ⟨hplaced.linked, hplaced.registered.congr rfl rfl rfl⟩

/-- Of the handler before it, a part of a call is compared with these fields only. -/
theorem CallPart.congr (hpart : CallPart h' r) (hrsp : h'.rsp_buff = h.rsp_buff) (herr : h'.err_no = h.err_no)
    (hdispatched : h'.dispatched = h.dispatched) (hfailed : h'.failed = h.failed) (hkey : h'.key = h.key) :
    CallPart h r :=
  ⟨hpart.placed, hpart.rsp_buff.trans hrsp, hpart.err_no.trans herr, hpart.dispatched.trans hdispatched,
    hpart.failed.trans hfailed, hpart.key.trans hkey, hpart.ended, hpart.asleep⟩

theorem waitSend_part (hplaced : Placed h) (hsession : h.in_session = true) (sent : Option ℕ) :
    CallPart h (h.waitSend sent) := by
  unfold NetHandler.waitSend
  split
  · exact exit_part hplaced _
  · exact exit_part hplaced _
  · next bytes _ =>
    have hlen := hplaced.setLen (h.req_len - bytes)
    dsimp only
    split
    · exact (waitRecv_part hlen hsession).congr rfl rfl rfl rfl rfl
    · exact (sleep_part hlen hsession _ (by decide)).congr rfl rfl rfl rfl rfl

/-- Switching lists and then a part of a call leaves what the part leaves. -/
theorem CallPart.ofSwitch (hplaced : Placed h) (list : LinkList) (hpart : CallPart (h.switchTo list) r) :
    CallPart h r := by
  obtain ⟨-, in_list, places, heq⟩ := switchTo_linked hplaced.linked list
  refine hpart.congr ?_ ?_ ?_ ?_ ?_
  all_goals rw [heq]

/-- `Link` puts a handler without a link into the idle list of one. -/
theorem link_placed (hplaced : Placed h) (hconn : h.conn = none) (conn : ℕ) :
    h.link conn = { h with conn := some conn, in_list := some .idle, places := [(conn, .idle)] } ∧
      Placed (h.link conn) := by
  have heq : h.link conn = { h with conn := some conn, in_list := some .idle, places := [(conn, .idle)] } := by
    have hlinked := hplaced.linked
    rcases h with ⟨_, _, _, _, in_list, _, _, _, places, _, _, _, _⟩
    rcases hlinked with ⟨-, hlist, hplaces⟩ | ⟨_, _, hsome, -, -⟩
    · dsimp only at hlist hplaces
      subst hlist hplaces
      rfl
    · cases hconn.symm.trans hsome
  refine ⟨heq, ?_⟩
  rw [heq]
  exact ⟨Or.inr ⟨conn, .idle, rfl, rfl, rfl⟩, hplaced.registered.congr rfl rfl rfl⟩

/-! ## A whole call -/

/-- What holds between steps: a handler whose thread is in no call is in no session, and one in a call is.  In a call
nothing is dispatched before `WaitRecv`, where a message wakes the thread; a response that is stored was dispatched in
the call, and an error code is one of a link that failed in it. -/
structure Answering (h : NetHandler) : Prop where
  placed : Placed h
  idle : h.phase = .none → h.conn = none ∧ h.in_session = false
  busy : h.phase ≠ .none → h.in_session = true
  unanswered : h.phase = .connect ∨ h.phase = .send → h.dispatched = []
  prompt : h.phase = .recv → h.dispatched ≠ [] → h.woken = true
  answer : h.phase ≠ .none → h.rsp_buff.isSome = true →
    ∃ m ∈ h.dispatched, m.1 = h.key.sid ∧ h.rsp_buff = some m.2
  code : h.phase ≠ .none → h.failed = false → h.err_no = .success

theorem init_answering : Answering NetHandler.init where
  placed := ⟨Or.inl ⟨rfl, rfl, rfl⟩, List.nodup_nil, by decide, by decide⟩
  idle _ := ⟨rfl, rfl⟩
  busy hphase := absurd rfl hphase
  unanswered _ := rfl
  prompt hphase := by cases hphase
  answer hphase := absurd rfl hphase
  code hphase := absurd rfl hphase

/-- A part of a call that ends it leaves a handler in no call. -/
theorem CallPart.answering_ended (hpart : CallPart h r) (hend : r.2.isSome = true) :
    Answering r.1 := by
  obtain ⟨hphase, hleft⟩ := hpart.ended hend
  constructor
  case placed => exact hpart.placed
  case idle => exact fun _ => hleft
  case unanswered | prompt =>
    intro hwait
    rw [hphase] at hwait
    rcases hwait with hwait | hwait <;> cases hwait
  case busy | answer | code => exact fun hbusy => absurd hphase hbusy

/-- A part of a call keeps what holds between steps, if nothing was dispatched in the call before it. -/
theorem CallPart.answering (hpart : CallPart h r) (hdispatched : h.dispatched = []) (hrsp : h.rsp_buff = none)
    (hcode : h.failed = false → h.err_no = .success) : Answering r.1 := by
  cases hend : r.2 with
  | some ret => exact hpart.answering_ended (by rw [hend]; rfl)
  | none =>
    obtain ⟨hphase, hsession⟩ := hpart.asleep hend
    constructor
    case placed => exact hpart.placed
    case idle => exact fun hidle => absurd hidle hphase
    case busy => exact fun _ => hsession
    case unanswered => exact fun _ => hpart.dispatched.trans hdispatched
    case prompt => exact fun _ hsome => absurd (hpart.dispatched.trans hdispatched) hsome
    case answer =>
      intro _ hsome
      rw [hpart.rsp_buff, hrsp] at hsome
      cases hsome
    case code =>
      intro _ hfailed
      rw [hpart.failed] at hfailed
      exact hpart.err_no.trans (hcode hfailed)

/-- A handler that is in no session can take any key. -/
theorem Registered.begin (hreg : Registered h) (hsession : h.in_session = false) (key : SessionKey) (len : ℕ) :
    Registered { h with key := key, req_len := len, dispatched := [], failed := false } where
  nodup := hreg.nodup
  own e he hown := by
    have habsent := hreg.absent hsession e he
    rw [habsent] at hown
    cases hown
  entry hin := by
    rw [hsession] at hin
    cases hin

/-- The keys stay different when one is added that is not found. -/
theorem keys_append_nodup (hreg : Registered h) (own : Bool) (hfind : ¬(h.findNetItem key).isSome) :
    ((h.session_hash ++ [(own, key)]).map Prod.snd).Nodup := by
  rw [List.map_append, List.nodup_append_comm, List.map_singleton, List.singleton_append, List.nodup_cons]
  refine ⟨fun hmem => ?_, hreg.nodup⟩
  obtain ⟨e, he, hkey⟩ := List.mem_map.mp hmem
  have hsome := findNetItem_mem hreg he
  rw [hkey] at hsome
  exact hfind (by rw [hsome]; rfl)

/-- A key that is not found can be registered. -/
theorem Registered.regist (hreg : Registered h) (hsession : h.in_session = false)
    (hfind : ¬(h.findNetItem h.key).isSome) :
    Registered { h with session_hash := h.session_hash ++ [(true, h.key)], in_session := true } where
  nodup := keys_append_nodup hreg true hfind
  own e he hown := by
    rcases List.mem_append.mp he with he | he
    · rw [hreg.absent hsession e he] at hown
      cases hown
    · rw [List.mem_singleton.mp he]
      exact ⟨rfl, rfl⟩
  entry _ := List.mem_append_right _ List.mem_cons_self

theorem call_part (hanswering : Answering h) (hphase : h.phase = .none) (key : SessionKey) (len : ℕ)
    (callback : Bool) (link : Option ℕ) (answer : SendAnswer) :
    CallPart { h with key := key, req_len := len, dispatched := [], failed := false }
      (h.call key len callback link answer) := by
  obtain ⟨hconn, hsession⟩ := hanswering.idle hphase
  have hbegin : Placed { h with key := key, req_len := len, dispatched := [], failed := false } :=
    ⟨hanswering.placed.linked, hanswering.placed.registered.begin hsession key len⟩
  unfold NetHandler.call
  dsimp only
  split
  · exact exit_part hbegin _
  split
  · exact exit_part hbegin _
  next hfind =>
  have hregist : Placed { h with
      key := key, req_len := len, dispatched := [], failed := false
      session_hash := h.session_hash ++ [(true, key)], in_session := true } :=
    ⟨hanswering.placed.linked, hbegin.registered.regist hsession hfind⟩
  cases link with
  | none => exact (exit_part hregist _).congr rfl rfl rfl rfl rfl
  | some link =>
    obtain ⟨heq, hlink⟩ := link_placed hregist hconn link
    dsimp only
    rw [heq] at hlink ⊢
    split
    · exact (exit_part hlink _).congr rfl rfl rfl rfl rfl
    split
    · exact (waitSend_part hlink rfl _).congr rfl rfl rfl rfl rfl
    · exact (sleep_part hlink rfl _ (by decide)).congr rfl rfl rfl rfl rfl

theorem resume_part (hanswering : Answering h) (hphase : h.phase ≠ .none) (answer : SendAnswer) :
    CallPart h (h.resume answer) := by
  have hplaced := hanswering.placed
  have hswitch := switchTo_placed hplaced .idle
  have hsession : (h.switchTo .idle).in_session = true := by
    obtain ⟨-, in_list, places, heq⟩ := switchTo_linked hplaced.linked .idle
    rw [heq]
    exact hanswering.busy hphase
  unfold NetHandler.resume
  cases hwait : h.phase with
  | none => exact absurd hwait hphase
  | connect =>
    refine CallPart.ofSwitch hplaced .idle ?_
    dsimp only
    split
    · exact exit_part hswitch _
    split
    · exact waitSend_part hswitch hsession _
    · exact exit_part hswitch _
  | send =>
    refine CallPart.ofSwitch hplaced .idle ?_
    dsimp only
    split
    · exact exit_part hswitch _
    split
    · exact waitRecv_part hswitch hsession
    · exact exit_part hswitch _
  | recv =>
    refine CallPart.ofSwitch hplaced .idle ?_
    dsimp only
    split
    · exact exit_part hswitch _
    · exact exit_part hswitch _

/-- A step of something else than the call: the lists may change, the thread be woken, and a link fail. -/
structure Beside (h h' : NetHandler) : Prop where
  placed : Placed h'
  conn : h.conn = none → h'.conn = none
  phase : h'.phase = h.phase
  in_session : h'.in_session = h.in_session
  dispatched : h'.dispatched = h.dispatched
  key : h'.key = h.key
  rsp_buff : h'.rsp_buff = h.rsp_buff
  woken : h.woken = true → h'.woken = true
  code : h'.failed = false → h.failed = false ∧ h'.err_no = h.err_no

theorem Beside.answering (hbeside : Beside h h') (hanswering : Answering h) : Answering h' := by
  have hphase := hbeside.phase
  have hdispatched := hbeside.dispatched
  constructor
  case placed => exact hbeside.placed
  case idle =>
    intro hidle
    obtain ⟨hconn, hsession⟩ := hanswering.idle (hphase ▸ hidle)
    exact ⟨hbeside.conn hconn, hbeside.in_session.trans hsession⟩
  case busy =>
    intro hbusy
    exact hbeside.in_session.trans (hanswering.busy (hphase ▸ hbusy))
  case unanswered =>
    intro hwait
    rw [hphase] at hwait
    exact hdispatched.trans (hanswering.unanswered hwait)
  case prompt =>
    intro hrecv hsome
    rw [hphase] at hrecv
    rw [hdispatched] at hsome
    exact hbeside.woken (hanswering.prompt hrecv hsome)
  case answer =>
    intro hbusy hsome
    rw [hphase] at hbusy
    rw [hbeside.rsp_buff] at hsome
    rw [hdispatched, hbeside.key, hbeside.rsp_buff]
    exact hanswering.answer hbusy hsome
  case code =>
    intro hbusy hfailed
    rw [hphase] at hbusy
    obtain ⟨hbefore, herr⟩ := hbeside.code hfailed
    exact herr.trans (hanswering.code hbusy hbefore)

theorem beside_refl (hplaced : Placed h) : Beside h h :=
  ⟨hplaced, id, rfl, rfl, rfl, rfl, rfl, id, fun hfailed => ⟨hfailed, rfl⟩⟩

theorem Placed.congr (hplaced : Placed h) (hlinked : Linked h') (hkey : h'.key = h.key)
    (hhash : h'.session_hash = h.session_hash) (hsession : h'.in_session = h.in_session) : Placed h' :=
  ⟨hlinked, hplaced.registered.congr hhash hkey hsession⟩

theorem switchTo_woken_beside (hplaced : Placed h) (list : LinkList) :
    Beside h { h.switchTo list with woken := true } := by
  have hswitch := switchTo_placed hplaced list
  obtain ⟨-, in_list, places, heq⟩ := switchTo_linked hplaced.linked list
  refine ⟨⟨hswitch.linked, hswitch.registered.congr rfl rfl rfl⟩, ?_, ?_, ?_, ?_, ?_, ?_, fun _ => rfl, ?_⟩
  all_goals rw [heq]
  · exact id
  · exact fun hfailed => ⟨hfailed, rfl⟩

theorem connected_beside (hplaced : Placed h) (conn : ℕ) : Beside h (h.connected conn) := by
  unfold NetHandler.connected
  split
  · exact switchTo_woken_beside hplaced .idle
  · exact beside_refl hplaced

theorem sent_beside (hplaced : Placed h) (conn bytes : ℕ) : Beside h (h.sent conn bytes) := by
  unfold NetHandler.sent
  split
  · dsimp only
    generalize (if h.key.udp then h.req_len else h.req_len - bytes) = left
    split
    · have hbeside := switchTo_woken_beside (hplaced.setLen left) .idle
      exact ⟨hbeside.placed, hbeside.conn, hbeside.phase, hbeside.in_session, hbeside.dispatched, hbeside.key,
        hbeside.rsp_buff, hbeside.woken, hbeside.code⟩
    · exact ⟨hplaced.setLen _, id, rfl, rfl, rfl, rfl, rfl, id, fun hfailed => ⟨hfailed, rfl⟩⟩
  · exact beside_refl hplaced

/-- The thread of a handler is woken, and the handler unlinked. -/
theorem unlink_beside (hplaced : Placed h) {err_no : RcType} {failed : Bool}
    (hcode : failed = false → h.failed = false ∧ err_no = h.err_no) (conn : ℕ) :
    Beside h
      (let h := { h with err_no := err_no, failed := failed, woken := true }
       { h.unlink with places := h.unlink.places.filter (·.1 ≠ conn) }) := by
  have heq := unlink_linked (h := { h with err_no := err_no, failed := failed, woken := true }) hplaced.linked
  dsimp only
  rw [heq]
  exact ⟨hplaced.congr (Or.inl ⟨rfl, rfl, rfl⟩) rfl rfl rfl, fun _ => rfl, rfl, rfl, rfl, rfl, rfl, fun _ => rfl,
    hcode⟩

theorem destroy_beside (hplaced : Placed h) (conn : ℕ) (errno : RcType) : Beside h (h.destroy conn errno) := by
  unfold NetHandler.destroy
  split
  · dsimp only
    split
    · exact unlink_beside hplaced (fun hfailed => ⟨hfailed, rfl⟩) conn
    · exact unlink_beside hplaced (fun hfailed => Bool.noConfusion hfailed) conn
  · exact beside_refl hplaced

theorem regist_answering (hanswering : Answering h) (hfind : ¬(h.findNetItem key).isSome) :
    Answering { h with session_hash := h.session_hash ++ [(false, key)] } := by
  have hreg := hanswering.placed.registered
  refine ⟨⟨hanswering.placed.linked, ?_, ?_, ?_⟩, hanswering.idle, hanswering.busy, hanswering.unanswered,
    hanswering.prompt, hanswering.answer, hanswering.code⟩
  · exact keys_append_nodup hreg false hfind
  · intro e he hown
    rcases List.mem_append.mp he with he | he
    · exact hreg.own e he hown
    · rw [List.mem_singleton.mp he] at hown
      cases hown
  · exact fun hin => List.mem_append_left _ (hreg.entry hin)

/-- The entry of another handler is removed, and not one of this handler. -/
theorem unregist_answering (hanswering : Answering h) (hmem : (false, key) ∈ h.session_hash) :
    Answering (h.removeNetItem key) := by
  have hreg := hanswering.placed.registered
  have hfind : h.findNetItem key = some (false, key) := findNetItem_mem hreg hmem
  unfold NetHandler.removeNetItem
  rw [hfind]
  refine ⟨⟨hanswering.placed.linked, ?_, ?_, ?_⟩, hanswering.idle, hanswering.busy, hanswering.unanswered,
    hanswering.prompt, hanswering.answer, hanswering.code⟩
  · exact erase_keys_nodup hreg _
  · exact fun e he hown => hreg.own e (List.mem_of_mem_erase he) hown
  · intro hin
    refine (List.mem_erase_of_ne ?_).mpr (hreg.entry hin)
    exact fun heq => Bool.noConfusion (congrArg Prod.fst heq)

/-- A message that is dispatched to the handler in `WaitRecv` is the response of its call. -/
theorem dispatch_answering (hanswering : Answering h) {message : List UInt8}
    (hsafe : SendRecvSafe h (.dispatch key message)) : Answering (h.dispatch key message) := by
  have hplaced := hanswering.placed
  unfold NetHandler.dispatch
  split
  · next entry hfind =>
    have hrecv : h.phase = .recv := hsafe (by rw [hfind]; rfl)
    have hbusy : h.phase ≠ .none := by rw [hrecv]; decide
    obtain ⟨hmem, hkey⟩ := findNetItem_some hfind
    obtain ⟨hsession, hown⟩ := hplaced.registered.own _ hmem rfl
    obtain ⟨-, in_list, places, heq⟩ := switchTo_linked hplaced.linked .idle
    have hswitch := switchTo_placed hplaced .idle
    dsimp only at hkey hown ⊢
    rw [heq] at hswitch ⊢
    constructor
    case placed => exact hswitch.congr hswitch.linked rfl rfl rfl
    case idle => exact fun hidle => absurd hidle hbusy
    case busy => exact fun _ => hsession
    case unanswered =>
      intro hwait
      dsimp only at hwait
      rw [hrecv] at hwait
      rcases hwait with hwait | hwait <;> cases hwait
    case prompt => exact fun _ _ => rfl
    case answer =>
      intro _ _
      refine ⟨(key.sid, message), List.mem_append_right _ List.mem_cons_self, ?_, rfl⟩
      exact congrArg SessionKey.sid (hkey.symm.trans hown)
    case code => exact hanswering.code
  · exact hanswering

theorem resume_answering (hanswering : Answering h) (answer : SendAnswer) : Answering (h.resume answer).1 := by
  by_cases hphase : h.phase = .none
  · unfold NetHandler.resume
    rw [hphase]
    exact hanswering
  have hpart := resume_part hanswering hphase answer
  have hcode := hanswering.code hphase
  by_cases hrecv : h.phase = .recv
  · refine hpart.answering_ended ?_
    unfold NetHandler.resume
    rw [hrecv]
    dsimp only
    split
    · rfl
    · rfl
  · have hdispatched : h.dispatched = [] := by
      refine hanswering.unanswered ?_
      cases hwait : h.phase with
      | none => exact absurd hwait hphase
      | connect => exact Or.inl rfl
      | send => exact Or.inr rfl
      | recv => exact absurd hwait hrecv
    have hrsp : h.rsp_buff = none := by
      by_contra hsome
      rw [← ne_eq, Option.ne_none_iff_isSome] at hsome
      obtain ⟨m, hmem, -⟩ := hanswering.answer hphase hsome
      rw [hdispatched] at hmem
      cases hmem
    exact hpart.answering hdispatched hrsp hcode

theorem step_answering (hanswering : Answering h) (op : SessionStep) (hsafe : SendRecvSafe h op) :
    Answering (h.step op).1 := by
  have hplaced := hanswering.placed
  cases op with
  | call key len callback link answer =>
    unfold NetHandler.step
    dsimp only
    split
    · next hphase =>
      obtain ⟨hrsp, herr⟩ := hsafe hphase
      exact (call_part hanswering hphase key len callback link answer).answering rfl hrsp fun _ => herr
    · exact hanswering
  | resume answer => exact resume_answering hanswering answer
  | dispatch key message =>
    unfold NetHandler.step
    dsimp only
    split
    · exact hanswering
    · exact dispatch_answering hanswering hsafe
  | connected link => exact (connected_beside hplaced link).answering hanswering
  | sent link bytes => exact (sent_beside hplaced link bytes).answering hanswering
  | destroy link errno => exact (destroy_beside hplaced link errno).answering hanswering
  | regist key =>
    unfold NetHandler.step
    dsimp only
    split
    · exact hanswering
    · next hfind => exact regist_answering hanswering hfind
  | unregist key =>
    unfold NetHandler.step
    dsimp only
    split
    · next hmem => exact unregist_answering hanswering hmem
    · exact hanswering

/-! ## What a call returns -/

theorem waitRecv_snd (h : NetHandler) : h.waitRecv.2 = if h.conn = none then some .memError else none := by
  unfold NetHandler.waitRecv
  split
  · next hconn => rw [if_pos hconn]; rfl
  · next link hconn => rw [if_neg (Option.ne_none_iff_exists'.mpr ⟨link, hconn⟩)]; rfl

theorem waitSend_snd (h : NetHandler) (sent : Option ℕ) :
    (h.waitSend sent).2 = if h.conn = none then some .memError else if sent = none then some .sendFail else none := by
  unfold NetHandler.waitSend
  split
  · next hconn => rw [if_pos hconn]; rfl
  · next hconn => rw [if_neg (Option.ne_none_iff_exists'.mpr ⟨_, hconn⟩)]; rfl
  · next link bytes hconn =>
    have hsome : h.conn ≠ none := Option.ne_none_iff_exists'.mpr ⟨link, hconn⟩
    rw [if_neg hsome, if_neg (Option.some_ne_none bytes)]
    dsimp only
    split
    · rw [waitRecv_snd]
      exact if_neg hsome
    · rfl

/-- What `SendRecv` returns when it does not sleep is a failure, and no matter of the error code. -/
theorem call_snd (hplaced : Placed h) (hconn : h.conn = none) (hsession : h.in_session = false) (key : SessionKey)
    (len : ℕ) (callback : Bool) (link : Option ℕ) (answer : SendAnswer) :
    (h.call key len callback link answer).2 =
      if len = 0 ∨ key.dest = 0 ∨ callback = false ∨ key.sid = 0 then some .invalidParam
      else if (h.findNetItem key).isSome then some .conflictSid
      else match link with
        | none => some .memError
        | some _ =>
          if !answer.opened then some .errSocket
          else if answer.connected ∧ answer.sent = none then some .sendFail else none := by
  have hbegin : Placed { h with key := key, req_len := len, dispatched := [], failed := false } :=
    ⟨hplaced.linked, hplaced.registered.begin hsession key len⟩
  have hfound : { h with key := key, req_len := len, dispatched := [], failed := false }.findNetItem key =
      h.findNetItem key := rfl
  unfold NetHandler.call
  dsimp only
  rw [hfound]
  split
  · rfl
  split
  · rfl
  next hfind =>
  cases link with
  | none => rfl
  | some link =>
    have hregist : Placed { h with
        key := key, req_len := len, dispatched := [], failed := false
        session_hash := h.session_hash ++ [(true, key)], in_session := true } :=
      ⟨hplaced.linked, hbegin.registered.regist hsession hfind⟩
    obtain ⟨heq, -⟩ := link_placed hregist hconn link
    dsimp only
    rw [heq]
    split
    · rfl
    cases answer.connected with
    | false => rfl
    | true =>
      rw [if_pos rfl, waitSend_snd, if_neg (Option.some_ne_none link)]
      split
      · next hsent => rw [if_pos ⟨rfl, hsent⟩]
      · next hsent => rw [if_neg fun hboth => hsent hboth.2]

/-- A call that ends is in no list and in no session. -/
theorem step_ended (hanswering : Answering h) (hend : (h.step op).2.isSome = true) :
    (h.step op).1.conn = none ∧ (h.step op).1.in_session = false := by
  cases op with
  | call key len callback link answer =>
    unfold NetHandler.step at hend ⊢
    dsimp only at hend ⊢
    split at hend
    · next hphase => exact ((call_part hanswering hphase key len callback link answer).ended hend).2
    · cases hend
  | resume answer =>
    by_cases hphase : h.phase = .none
    · unfold NetHandler.step NetHandler.resume at hend
      rw [hphase] at hend
      cases hend
    · exact ((resume_part hanswering hphase answer).ended hend).2
  | _ => cases hend

/-- Only a call that finds a response after `WaitRecv` returns 0. -/
theorem step_success (hanswering : Answering h) (hend : (h.step op).2 = some .success) :
    (∃ answer, op = .resume answer) ∧ h.phase = .recv ∧ h.rsp_buff.isSome = true := by
  cases op with
  | call key len callback link answer =>
    exfalso
    unfold NetHandler.step at hend
    dsimp only at hend
    split at hend
    · next hphase =>
      obtain ⟨hconn, hsession⟩ := hanswering.idle hphase
      rw [call_snd hanswering.placed hconn hsession] at hend
      split at hend
      · cases hend
      split at hend
      · cases hend
      split at hend
      · cases hend
      split at hend
      · cases hend
      split at hend
      · cases hend
      · cases hend
    · cases hend
  | resume answer =>
    refine ⟨⟨answer, rfl⟩, ?_⟩
    obtain ⟨-, in_list, places, heq⟩ := switchTo_linked hanswering.placed.linked .idle
    have hrsp : (h.switchTo .idle).rsp_buff = h.rsp_buff := by rw [heq]
    unfold NetHandler.step NetHandler.resume at hend
    cases hwait : h.phase with
    | none => rw [hwait] at hend; cases hend
    | connect =>
      exfalso
      rw [hwait] at hend
      dsimp only at hend
      split at hend
      · next herr => exact herr (Option.some.inj hend)
      split at hend
      · rw [waitSend_snd] at hend
        split at hend
        · cases hend
        split at hend
        · cases hend
        · cases hend
      · cases hend
    | send =>
      exfalso
      rw [hwait] at hend
      dsimp only at hend
      split at hend
      · next herr => exact herr (Option.some.inj hend)
      split at hend
      · rw [waitRecv_snd] at hend
        split at hend
        · cases hend
        · cases hend
      · cases hend
    | recv =>
      refine ⟨rfl, ?_⟩
      rw [hwait] at hend
      dsimp only at hend
      rw [hrsp] at hend
      split at hend
      · next hsome => rw [hsome]; rfl
      · cases hend
  | _ => cases hend

/-- Without the error code of an earlier call, a call returns what it would return if there had been none. -/
theorem step_own (hanswering : Answering h) (hfailed : failedSince h op = false) :
    (h.step op).2 = ({ h with err_no := .success }.step op).2 := by
  have hplaced := hanswering.placed
  cases op with
  | call key len callback link answer =>
    unfold NetHandler.step
    dsimp only
    split
    · next hphase =>
      obtain ⟨hconn, hsession⟩ := hanswering.idle hphase
      have hclean : Placed { h with err_no := RcType.success } := hplaced.congr hplaced.linked rfl rfl rfl
      rw [call_snd hplaced hconn hsession, call_snd hclean hconn hsession]
      rfl
    · rfl
  | resume answer =>
    by_cases hidle : h.phase ≠ .none
    · rw [← hanswering.code hidle hfailed]
    · rw [not_not] at hidle
      unfold NetHandler.step NetHandler.resume
      dsimp only
      rw [hidle]
  | _ => rfl

theorem step_sendRecvRight (hanswering : Answering h) (hsafe : SendRecvSafe h op) :
    SendRecvRight h op := by
  have hafter := step_answering hanswering op hsafe
  constructor
  case answered =>
    intro hend
    obtain ⟨⟨answer, rfl⟩, hphase, hsome⟩ := step_success hanswering hend
    have hbusy : h.phase ≠ .none := by rw [hphase]; decide
    have hpart := resume_part hanswering hbusy answer
    have hanswer := hanswering.answer hbusy hsome
    rw [← hpart.dispatched, ← hpart.key, ← hpart.rsp_buff] at hanswer
    exact hanswer
  case own => exact fun hfailed => step_own hanswering hfailed
  case prompt =>
    intro hphase hwoken
    by_contra hdispatched
    rw [hafter.prompt hphase hdispatched] at hwoken
    cases hwoken
  case left =>
    intro hend
    obtain ⟨hconn, hsession⟩ := step_ended hanswering hend
    exact ⟨hafter.placed.linked.places_nil hconn, hafter.placed.registered.absent hsession⟩

/-- INTERNAL: a run in which every call begins with neither a response nor an error code, and messages are dispatched
only to a thread in `WaitRecv`, answers every call with its own response, and leaves the lists and the session hash
after it. -/
theorem sendRecv_answers {ops : List SessionStep}
    (hsafe : AllSteps (fun h op => (h.step op).1) SendRecvSafe .init ops) :
    AllSteps (fun h op => (h.step op).1) SendRecvRight .init ops :=
  AllSteps.imp (I := Answering) (fun _ op => fun hanswering hop => step_answering hanswering op hop)
    (fun _ _ hanswering hop => step_sendRecvRight hanswering hop) init_answering hsafe

/-- A call that meets its timeout, and one whose response comes while it waits for it. -/
theorem sendRecv_answers_two :
    AllSteps (fun h op => (h.step op).1) SendRecvRight .init
      [.call ⟨1, false, 7⟩ 4 true (some 0) ⟨true, true, some 4⟩, .resume ⟨true, true, none⟩,
        .call ⟨1, false, 8⟩ 4 true (some 0) ⟨true, false, none⟩, .connected 0, .resume ⟨true, true, some 4⟩,
        .dispatch ⟨1, false, 8⟩ [65], .resume ⟨true, true, none⟩] :=
  sendRecv_answers (by decide)

/-- The second call gets no response before its timeout, and returns 0 with the response of the first. -/
theorem sendRecv_stale_response :
    ¬AllSteps (fun h op => (h.step op).1) SendRecvRight .init
      [.call ⟨1, false, 7⟩ 4 true (some 0) ⟨true, true, some 4⟩, .dispatch ⟨1, false, 7⟩ [65],
        .resume ⟨true, true, none⟩, .call ⟨1, false, 8⟩ 4 true (some 0) ⟨true, true, some 4⟩,
        .resume ⟨true, true, none⟩] := by
  rintro ⟨-, -, -, -, hright, -⟩
  obtain ⟨m, hmem, -⟩ := hright.answered (by decide)
  exact List.not_mem_nil hmem

end FStack.Analysis
