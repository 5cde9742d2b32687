import FStack.Model.LinkInterest
import FStack.Analysis.RequestFraming

/-!
# A queued request is going to be retried

Handlers wait for a connection only while it is being made, and the write filter that `CreateSock` asks for is
kept until then.  Afterwards `OutputNotify` and `SendData` give it up when nobody waits to send.  A request that
cannot be sent whole later on should bring it back; `SendData` asks for the read filter instead, and only the mask of
the link has the write filter then.  As long as no request finds it taken out of that mask, the two masks agree.
-/

set_option autoImplicit false

namespace FStack.Analysis

open FStack.Model FStack.Model.KqueueProxy FStack.Prelude

variable {env : KqEnv} {ret : ℤ} {data : List UInt8} {results : List WritevResult}

/-- The descriptor is registered for write readiness. -/
def Listens (s : KqueueProxy) (fd : BitVec 32) : Prop := ∃ ref ∈ s.kqFdRefGet fd, .write ∈ ref.events

instance (s : KqueueProxy) (fd : BitVec 32) : Decidable (Listens s fd) :=
  match h : s.kqFdRefGet fd with
  | none => isFalse (by rintro ⟨ref, href, -⟩; rw [h] at href; cases href)
  | some ref =>
    decidable_of_iff (.write ∈ ref.events)
      ⟨fun hw => ⟨ref, h, hw⟩, fun ⟨ref', href, hw⟩ => by rw [h] at href; cases href; exact hw⟩

/-- While a handler waits to connect or to send, the descriptor of the link is registered for write readiness,
unless the link is destroyed. -/
def Awaited (link : InterestLink) : Prop :=
  link.send.closed = false → (link.send.wait_send ≠ [] ∨ link.wait_connect ≠ []) →
    Listens link.proxy link.fd

def InterestRight (link : InterestLink) (op : InterestStep) : Prop := Awaited (link.step op)

/-- The socket takes `len` bytes when it is first asked. -/
def takesAll (len : ℕ) : List WritevResult → Bool
  | .accepted bytes :: _ => decide (len ≤ bytes)
  | _ => false

/-- The condition on the state before a step: `WaitConnect` does not find the descriptor 0; a request has less than
2^31 bytes, and if the write filter was given up in the mask of the link, the socket takes all of it. -/
def InterestSafe (link : InterestLink) : InterestStep → Prop
  | .connect _ _ _ => link.fd ≠ 0
  | .send data results _ =>
    data ≠ [] → link.connected = true →
      data.length < 2 ^ 31 ∧ (.write ∈ link.events ∨ takesAll data.length results = true)
  | _ => True

instance (link : InterestLink) : DecidablePred (InterestSafe link)
  | .connect _ _ _ => inferInstanceAs (Decidable (_ ≠ _))
  | .send data results _ => inferInstanceAs (Decidable (data ≠ [] → link.connected = true →
      data.length < 2 ^ 31 ∧ (.write ∈ link.events ∨ takesAll data.length results = true)))
  | .output _ _ | .input _ _ _ _ | .timeout _ _ => inferInstanceAs (Decidable True)

/-! ## The proxy -/

section Proxy

variable {s : KqueueProxy} {fd : BitVec 32}

theorem kqFdRefGet_setRef {item : KqFdRef} (kq : KnoteTable) (h : (s.kqFdRefGet fd).isSome = true) :
    ({ s.setRef fd item with kq := kq } : KqueueProxy).kqFdRefGet fd = some item := by
  unfold kqFdRefGet KqueueProxy.setRef at *
  dsimp only
  split at h
  · cases h
  · rename_i hrange
    rw [if_neg hrange, Function.update_self]

/-- A call of `KqueueCtrlAdd`: events are added to the record, if it does not fail.
SOURCE: kqueue_proxy.cpp:168-234 -/
theorem kqueueCtrlAdd_events {ref : KqFdRef} (h : s.kqFdRefGet fd = some ref) (env : KqEnv) (events : KqEvents) :
    ∃ item, (s.kqueueCtrlAdd env fd events).1.kqFdRefGet fd = some item ∧ ref.events ⊆ item.events ∧
      ((s.kqueueCtrlAdd env fd events).2 = true → events ⊆ item.events) := by
  have hsome : (s.kqFdRefGet fd).isSome = true := by rw [h]; rfl
  unfold kqueueCtrlAdd
  rw [h]
  dsimp only
  split
  · rename_i hsame
    refine ⟨ref.attachEvents events, kqFdRefGet_setRef s.kq hsome, Finset.Subset.refl _, fun _ => ?_⟩
    rw [KqFdRef.attachEvents_events] at hsame ⊢
    rw [hsame]
    exact Finset.subset_union_right
  · split
    · refine ⟨_, kqFdRefGet_setRef _ hsome, Finset.subset_union_left, fun _ => Finset.subset_union_right⟩
    · refine ⟨_, kqFdRefGet_setRef _ hsome, Finset.Subset.refl _, fun hok => by cases hok⟩

theorem Listens.ctrlAdd (h : Listens s fd) (env : KqEnv) (events : KqEvents) :
    Listens (s.kqueueCtrlAdd env fd events).1 fd := by
  obtain ⟨ref, href, hw⟩ := h
  obtain ⟨item, hitem, hsub, -⟩ := kqueueCtrlAdd_events href env events
  exact ⟨item, hitem, hsub hw⟩

/-- An object that was added is registered for what it asks for.
SOURCE: kqueue_proxy.cpp:313-338 -/
theorem kqueueAddObj_listens {events : KqEvents} {conflict : Bool}
    (hok : (s.kqueueAddObj env fd events conflict).2 = true) (hw : .write ∈ events) :
    Listens (s.kqueueAddObj env fd events conflict).1 fd := by
  unfold kqueueAddObj at hok ⊢
  split at hok
  · cases hok
  · rename_i hno
    rw [if_neg hno]
    rw [Bool.or_eq_true, not_or, Bool.not_eq_true, Option.isNone_eq_false_iff] at hno
    obtain ⟨ref, href⟩ := Option.isSome_iff_exists.mp hno.1
    obtain ⟨item, hitem, -, hall⟩ := kqueueCtrlAdd_events href env events
    exact ⟨item, hitem, hall hok hw⟩

end Proxy

/-! ## The socket -/

section Socket

variable {link : SendLink}

/-- No handler enters the list while something is sent, and when bytes of a new request are sent,
none is left in the list.
SOURCE: mt_net.cpp:1020-1078 -/
theorem sendCacheTcp_waiting (h : Queued link.wait_send) (data : Option (ℕ × List UInt8)) (result : WritevResult) :
    Queued (link.sendCacheTcp data result).1.wait_send ∧
      (link.wait_send = [] → (link.sendCacheTcp data result).1.wait_send = []) ∧
      (0 < (link.sendCacheTcp data result).2 → (link.sendCacheTcp data result).1.wait_send = []) ∧
      (link.sendCacheTcp data result).1.closed = link.closed := by
  unfold SendLink.sendCacheTcp
  rcases writev (link.iov data) result with ⟨_ | bytes, again⟩
  · cases again with
    | true => exact ⟨h, id, fun hpos => (Int.lt_irrefl 0 hpos).elim, rfl⟩
    | false => exact ⟨h, id, fun hpos => (Int.negSucc_not_nonneg 0 |>.mp (Int.le_of_lt hpos)).elim, rfl⟩
  · have hskip := skipLoop_skipped h (bytes.length % 2 ^ 32)
    refine ⟨hskip.queued, fun hnil => ?_, fun hpos => ?_, rfl⟩
    · dsimp only
      rw [hnil]
      rfl
    · apply hskip.queued.nil_of_leftOver
      rw [hskip.leftOver]
      apply List.drop_of_length_le
      by_contra hshort
      have hzero : (skipLoop link.wait_send (bytes.length % 2 ^ 32)).2 = 0 := by
        rw [hskip.send_left]
        omega
      dsimp only at hpos
      rw [hzero] at hpos
      exact absurd hpos (by decide)

/-- What the loop of `SendCacheUdp` leaves: nothing, or it was left with a result that is not positive. -/
structure UdpLeft (items : List SendHandler) (r : List SendHandler × List WritevResult × Option ℤ) : Prop where
  done : r.2.2 = none → r.1 = []
  ret : ∀ ret ∈ r.2.2, ret ≤ 0
  none : items = [] → r.1 = []

theorem UdpLeft.stop (item : SendHandler) (rest : List SendHandler) (results : List WritevResult) (hret : ret ≤ 0) :
    UdpLeft (item :: rest) (item :: rest, results, some ret) := by
  refine ⟨fun hnone => (by cases hnone), ?_, fun hnil => (by cases hnil)⟩
  rintro _ ⟨⟩
  exact hret

theorem sendUdpLoop_left (items : List SendHandler) (results : List WritevResult) :
    UdpLeft items (sendUdpLoop items results) := by
  induction items generalizing results with
  | nil =>
    refine ⟨fun _ => rfl, ?_, fun _ => rfl⟩
    rintro ret ⟨⟩
  | cons item rest ih =>
    unfold sendUdpLoop
    split
    · exact ⟨(ih results).done, (ih results).ret, fun hnil => by cases hnil⟩
    · split
      · exact UdpLeft.stop item rest _ le_rfl
      · exact UdpLeft.stop item rest _ le_rfl
      · exact UdpLeft.stop item rest _ (by decide)
      · exact ⟨(ih results.tail).done, (ih results.tail).ret, fun hnil => by cases hnil⟩

/-- The same for datagrams.
SOURCE: mt_net.cpp:953-1018 -/
theorem sendCacheUdp_waiting (link : SendLink) (data : Option (ℕ × List UInt8)) (results : List WritevResult) :
    (link.wait_send = [] → (link.sendCacheUdp data results).1.wait_send = []) ∧
      (0 < (link.sendCacheUdp data results).2 → (link.sendCacheUdp data results).1.wait_send = []) ∧
      (link.sendCacheUdp data results).1.closed = link.closed := by
  obtain ⟨hdone, hret, hnil⟩ := sendUdpLoop_left link.wait_send results
  unfold SendLink.sendCacheUdp
  generalize sendUdpLoop link.wait_send results = r at *
  obtain ⟨items, results', ret⟩ := r
  dsimp only at hdone hret hnil ⊢
  cases ret with
  | some ret =>
    refine ⟨hnil, fun hpos => ?_, rfl⟩
    have hle := hret ret rfl
    dsimp only at hpos
    omega
  | none =>
    have hitems := hdone rfl
    cases data with
    | none => exact ⟨fun _ => hitems, fun _ => hitems, rfl⟩
    | some r =>
      dsimp only
      split
      · exact ⟨fun _ => hitems, fun _ => hitems, rfl⟩
      · exact ⟨fun _ => hitems, fun _ => hitems, rfl⟩
      · exact ⟨fun _ => hitems, fun _ => hitems, rfl⟩
      · split
        · exact ⟨fun _ => hitems, fun _ => hitems, rfl⟩
        · exact ⟨fun _ => hitems, fun _ => hitems, rfl⟩

/-- What holds of the list of waiting handlers for either protocol. -/
structure Waiting (udp : Bool) (link : SendLink) (r : SendLink × ℤ) : Prop where
  queued : udp = false → Queued r.1.wait_send
  none : link.wait_send = [] → r.1.wait_send = []
  sent : 0 < r.2 → r.1.wait_send = []
  closed : r.1.closed = link.closed

theorem sendCache_waiting {udp : Bool} (h : udp = false → Queued link.wait_send) (data : Option (ℕ × List UInt8))
    (results : List WritevResult) : Waiting udp link (link.sendCache udp data results) := by
  cases udp with
  | true =>
    obtain ⟨hnone, hsent, hclosed⟩ := sendCacheUdp_waiting link data results
    exact ⟨fun hudp => (by cases hudp), hnone, hsent, hclosed⟩
  | false =>
    obtain ⟨hqueued, hnone, hsent, hclosed⟩ :=
      sendCacheTcp_waiting (h rfl) data (results.head?.getD (.failed true))
    exact ⟨fun _ => hqueued, hnone, hsent, hclosed⟩

/-- After `SendData` a handler waits behind the others, if it has something left.
SOURCE: mt_net.cpp:331-347 -/
theorem waitRest_waiting (h : Queued link.wait_send) (data : List UInt8) (hsent : 0 < ret → link.wait_send = []) :
    Queued (link.waitRest data ret).wait_send := by
  unfold SendLink.waitRest
  split
  · exact h
  · rename_i hneg
    dsimp only
    split
    · exact h
    · rename_i hleft
      have hpos : ret.toNat < data.length := by
        rw [skipSendPos_getSendData, List.length_drop] at hleft
        unfold SendHandler.getSendData at hleft
        rw [List.length_drop] at hleft
        dsimp only at hleft
        omega
      have hskip : ((SendHandler.mk link.count data 0).skipSendPos ret.toNat).1 =
          ⟨link.count, data, ret.toNat⟩ := by
        unfold SendHandler.skipSendPos SendHandler.getSendData
        dsimp only
        rw [List.drop_zero, Nat.zero_add, if_neg (by omega)]
      rw [hskip]
      by_cases hzero : ret = 0
      · refine ⟨fun item hitem => ?_, fun item hitem => ?_⟩
        · rcases List.mem_append.mp hitem with hitem | hitem
          · exact h.left item hitem
          · obtain rfl := List.mem_singleton.mp hitem
            exact hpos
        · cases hitems : link.wait_send with
          | nil =>
            dsimp only at hitem
            rw [hitems] at hitem
            cases hitem
          | cons first rest =>
            dsimp only at hitem
            rw [hitems] at hitem h
            rcases List.mem_append.mp hitem with hitem | hitem
            · exact h.untouched item hitem
            · obtain rfl := List.mem_singleton.mp hitem
              dsimp only
              omega
      · dsimp only
        rw [hsent (by omega)]
        refine ⟨fun item hitem => ?_, fun item hitem => by cases hitem⟩
        obtain rfl := List.mem_singleton.mp hitem
        exact hpos

theorem waitRest_all (link : SendLink) (hall : (data.length : ℤ) ≤ ret) :
    (link.waitRest data ret).wait_send = link.wait_send := by
  unfold SendLink.waitRest
  rw [if_neg (by omega)]
  dsimp only
  rw [if_pos]
  rw [skipSendPos_getSendData, List.length_drop]
  unfold SendHandler.getSendData
  rw [List.length_drop]
  dsimp only
  omega

/-- A request that nobody waits before, and that the socket takes whole. -/
theorem sendCache_whole (hnil : link.wait_send = []) (udp : Bool) (hlong : data.length < 2 ^ 31)
    (htakes : takesAll data.length results = true) :
    (link.sendCache udp (some (link.count, data)) results).2 = data.length := by
  cases results with
  | nil => cases htakes
  | cons result results =>
    cases result with
    | failed again => cases htakes
    | accepted bytes =>
      have hle : data.length ≤ bytes := of_decide_eq_true htakes
      unfold SendLink.sendCache
      cases udp with
      | true =>
        rw [if_pos rfl]
        unfold SendLink.sendCacheUdp
        rw [hnil]
        dsimp only [sendUdpLoop, List.head?_cons]
        rw [if_neg (Nat.not_le.mpr hlong), Nat.min_eq_right hle, int32_natCast hlong]
      | false =>
        rw [if_neg Bool.false_ne_true]
        have hiov : link.iov (some (link.count, data)) = [(link.count, data)] := by
          unfold SendLink.iov
          rw [hnil]
          rfl
        have hshort : ¬∃ entry ∈ [(link.count, data)], 2 ^ 31 ≤ entry.2.length := by
          rintro ⟨entry, hentry, hbig⟩
          rw [List.mem_singleton.mp hentry] at hbig
          exact Nat.not_le.mpr hlong hbig
        have htagged : (tagged link.count data).length ≤ bytes := by rwa [tagged_length]
        have hmod : data.length % 2 ^ 32 = data.length := Nat.mod_eq_of_lt (by omega)
        unfold SendLink.sendCacheTcp
        rw [hiov, List.head?_cons, Option.getD_some, writev, if_neg hshort, List.flatMap_singleton,
          List.take_of_length_le htagged]
        dsimp only
        rw [hnil, tagged_length, hmod, skipLoop, int32_natCast hlong]

end Socket

/-! ## Steps -/

variable {link : InterestLink}

/-- What a link keeps that is not destroyed.  Handlers wait for a connection only while it is being made, and until
then the write filter is not given up; handlers wait to send only while the mask of the link has the write filter, and
what this mask has the descriptor is registered for. -/
structure InterestSettled (link : InterestLink) : Prop where
  queued : link.udp = false → Queued link.send.wait_send
  conns : link.wait_connect ≠ [] → link.udp = false ∧ link.connecting = true ∧ link.connected = false
  sends : link.send.wait_send ≠ [] → link.connected = true ∧ .write ∈ link.events
  closed : link.fd.slt 0 = true → link.connecting = false ∧ link.connected = false
  opened : link.fd.slt 0 = false → link.connecting = true ∨ link.connected = true
  making : link.udp = false → link.connecting = true → link.connected = false → .write ∈ link.events
  masks : link.fd.slt 0 = false → .write ∈ link.events → Listens link.proxy link.fd

/-- A link has a socket, once it is being connected. -/
theorem InterestSettled.socket (h : InterestSettled link) (hstate : link.connecting = true ∨ link.connected = true) :
    link.fd.slt 0 = false := by
  rw [← Bool.not_eq_true]
  intro hneg
  obtain ⟨hconnecting, hconnected⟩ := h.closed hneg
  rcases hstate with hyes | hyes
  · exact Bool.false_ne_true (hconnecting.symm.trans hyes)
  · exact Bool.false_ne_true (hconnected.symm.trans hyes)

theorem InterestSettled.awaited (h : InterestSettled link) : Awaited link := by
  rintro - (hsend | hconn)
  · obtain ⟨hconnected, hw⟩ := h.sends hsend
    exact h.masks (h.socket (Or.inr hconnected)) hw
  · obtain ⟨hudp, hconnecting, hno⟩ := h.conns hconn
    exact h.masks (h.socket (Or.inl hconnecting)) (h.making hudp hconnecting hno)

/-- A link without a socket, in which nobody waits. -/
theorem InterestSettled.of_closed (hsend : link.send.wait_send = []) (hconn : link.wait_connect = [])
    (hneg : link.fd.slt 0 = true) (hconnecting : link.connecting = false) (hconnected : link.connected = false) :
    InterestSettled link where
  queued _ := by
    rw [hsend]
    exact ⟨fun item hitem => (by cases hitem), fun item hitem => (by cases hitem)⟩
  conns hne := absurd hconn hne
  sends hne := absurd hsend hne
  closed _ := ⟨hconnecting, hconnected⟩
  opened hpos := absurd (hneg.symm.trans hpos) Bool.false_ne_true.symm
  making _ hyes := absurd (hconnecting.symm.trans hyes) Bool.false_ne_true
  masks hpos := absurd (hneg.symm.trans hpos) Bool.false_ne_true.symm

/-- A handler that connects over a socket for which the masks agree.
SOURCE: mt_net.cpp:284-299, 900-944 -/
theorem InterestSettled.connect (id : ℕ) (established : Bool) (hpos : link.fd.slt 0 = false)
    (hqueued : link.udp = false → Queued link.send.wait_send)
    (hconns : link.wait_connect ≠ [] → link.udp = false ∧ link.connecting = true ∧ link.connected = false)
    (hsends : link.send.wait_send ≠ [] → link.connected = true ∧ .write ∈ link.events)
    (hmaking : link.udp = false → link.connected = false → .write ∈ link.events)
    (hmasks : .write ∈ link.events → Listens link.proxy link.fd) :
    let r := link.connect established
    InterestSettled (if r.2 then r.1 else { r.1 with wait_connect := r.1.wait_connect ++ [id] }) := by
  have hclosed : ∀ {p : Prop}, link.fd.slt 0 = true → p := fun hneg =>
    absurd (hpos.symm.trans hneg) Bool.false_ne_true
  unfold InterestLink.connect
  dsimp only
  cases hconnected : link.connected || link.udp with
  | true =>
    refine ⟨hqueued, fun hne => ?_, fun hne => ⟨rfl, (hsends hne).2⟩, hclosed, fun _ => Or.inr rfl,
      fun _ _ hno => (by cases hno), fun _ => hmasks⟩
    obtain ⟨hudp, -, hno⟩ := hconns hne
    rw [hudp, hno] at hconnected
    cases hconnected
  | false =>
    obtain ⟨hno, hudp⟩ := Bool.or_eq_false_iff.mp hconnected
    have hnobody : link.send.wait_send = [] := by
      by_contra hne
      exact Bool.false_ne_true (hno.symm.trans (hsends hne).1)
    rw [if_neg Bool.false_ne_true]
    cases hconnecting : link.connecting with
    | true =>
      rw [if_pos rfl]
      exact ⟨hqueued, fun _ => ⟨hudp, rfl, rfl⟩, fun hne => absurd hnobody hne, hclosed, fun _ => Or.inl rfl,
        fun _ _ _ => hmaking hudp hno, fun _ => hmasks⟩
    | false =>
      rw [if_neg Bool.false_ne_true]
      cases established with
      | true =>
        refine ⟨hqueued, fun hne => ?_, fun hne => absurd hnobody hne, hclosed, fun _ => Or.inr rfl,
          fun _ _ hno => (by cases hno), fun _ => hmasks⟩
        exact absurd (hconnecting.symm.trans (hconns hne).2.1) Bool.false_ne_true
      | false =>
        exact ⟨hqueued, fun _ => ⟨hudp, rfl, rfl⟩, fun hne => absurd hnobody hne, hclosed, fun _ => Or.inl rfl,
          fun _ _ _ => hmaking hudp hno, fun _ => hmasks⟩

/-- **`WaitConnect`**.
SOURCE: mt_net.cpp:275-299, 833-880 -/
theorem InterestSettled.waitConnect (h : InterestSettled link) (id : ℕ) (answer : SockAnswer) (established : Bool)
    (hsafe : link.fd ≠ 0) : InterestSettled (link.waitConnect id answer established) := by
  unfold InterestLink.waitConnect InterestLink.createSock
  by_cases hfd : (0#32).slt link.fd = true
  · rw [if_pos hfd]
    have hpos : link.fd.slt 0 = false := by
      rw [← Bool.not_eq_true, BitVec.slt_iff_toInt_lt]
      rw [BitVec.slt_iff_toInt_lt] at hfd
      exact Int.not_lt.mpr (Int.le_of_lt hfd)
    refine InterestSettled.connect id established hpos h.queued h.conns h.sends (fun hudp hno => ?_) (h.masks hpos)
    refine h.making hudp ((h.opened hpos).resolve_right fun hyes => ?_) hno
    exact Bool.false_ne_true (hno.symm.trans hyes)
  · -- there is no socket yet, and nobody waits for one
    have hneg : link.fd.slt 0 = true := by
      rw [BitVec.slt_iff_toInt_lt] at hfd ⊢
      have hne : link.fd.toInt ≠ 0 := fun hzero => hsafe (BitVec.eq_of_toInt_eq hzero)
      have hle := Int.not_lt.mp hfd
      rw [BitVec.toInt_zero] at hle
      exact lt_of_le_of_ne hle hne
    obtain ⟨hconnecting, hconnected⟩ := h.closed hneg
    have hsend : link.send.wait_send = [] := by
      by_contra hne
      exact Bool.false_ne_true (hconnected.symm.trans (h.sends hne).1)
    have hconn : link.wait_connect = [] := by
      by_contra hne
      exact Bool.false_ne_true (hconnecting.symm.trans (h.conns hne).2.1)
    have hminus : (-1 : BitVec 32).slt 0 = true := by decide
    rw [if_neg hfd]
    by_cases hsocket : answer.socket.slt 0 = true
    · rw [if_pos hsocket]
      exact InterestSettled.of_closed hsend hconn hsocket hconnecting hconnected
    rw [if_neg hsocket]
    by_cases hioctl : (!answer.ioctl) = true
    · rw [if_pos hioctl]
      exact InterestSettled.of_closed hsend hconn hminus hconnecting hconnected
    rw [if_neg hioctl]
    dsimp only
    generalize hadd : link.proxy.kqueueAddObj answer.env answer.socket
      (insert .read (if link.udp = true then link.events else insert .write link.events)) answer.conflict = r
    obtain ⟨proxy, ok⟩ := r
    cases ok with
    | true =>
      rw [Bool.not_eq_true] at hsocket
      refine @InterestSettled.connect ⟨link.udp, answer.socket, _, link.connecting, link.connected,
        link.wait_connect, link.send, proxy⟩ id established hsocket h.queued h.conns (fun hne => absurd hsend hne)
        (fun hudp _ => ?_) fun hw => ?_
      · dsimp only at hudp ⊢
        rw [hudp, if_neg Bool.false_ne_true]
        exact Finset.mem_insert_of_mem (Finset.mem_insert_self _ _)
      · have hlistens := kqueueAddObj_listens (congrArg Prod.snd hadd) hw
        rw [hadd] at hlistens
        exact hlistens
    | false => exact InterestSettled.of_closed hsend hconn hminus hconnecting hconnected

/-- `SendData` for a request whose length is an `int32_t`. -/
theorem sendData_eq (link : InterestLink) (results : List WritevResult) (env : KqEnv) (hlong : data.length < 2 ^ 31) :
    link.sendData data results env =
      if (link.send.sendCache link.udp (some (link.send.count, data)) results).2 < (data.length : ℤ) then
        ({ link with
            send := (link.send.sendCache link.udp (some (link.send.count, data)) results).1
            events := insert .write link.events
            proxy := (link.proxy.kqueueCtrlAdd env link.fd {.read}).1 },
          (link.send.sendCache link.udp (some (link.send.count, data)) results).2)
      else
        ({ link with
            send := (link.send.sendCache link.udp (some (link.send.count, data)) results).1
            events := link.events.erase .write
            proxy := (link.proxy.kqueueCtrlDel env link.fd {.write}).1 },
          (link.send.sendCache link.udp (some (link.send.count, data)) results).2) := by
  unfold InterestLink.sendData
  rw [int32_natCast hlong]

/-- **`WaitSend`**.
SOURCE: mt_net.cpp:322-347, 1082-1115 -/
theorem InterestSettled.waitSend (h : InterestSettled link) (hsafe : InterestSafe link (.send data results env)) :
    InterestSettled (link.waitSend data results env) := by
  unfold InterestLink.waitSend
  split
  · exact h
  · rename_i hgo
    obtain ⟨hdata, hconnected⟩ := not_or.mp hgo
    rw [Bool.not_eq_false] at hconnected
    obtain ⟨hlong, hmask⟩ := hsafe hdata hconnected
    have hsocket := h.socket (Or.inr hconnected)
    have hclosed : ∀ {p : Prop}, link.fd.slt 0 = true → p := fun hneg =>
      absurd (hsocket.symm.trans hneg) Bool.false_ne_true
    have hconn : link.wait_connect = [] := by
      by_contra hne
      exact Bool.false_ne_true ((h.conns hne).2.2.symm.trans hconnected)
    have hmaking : ∀ {p : Prop}, link.connected = false → p := fun hno =>
      absurd (hno.symm.trans hconnected) Bool.false_ne_true
    have hwhole : .write ∉ link.events →
        (link.send.sendCache link.udp (some (link.send.count, data)) results).2 = data.length := by
      intro hw
      refine sendCache_whole ?_ link.udp hlong (hmask.resolve_left hw)
      by_contra hne
      exact hw (h.sends hne).2
    have hwaiting := sendCache_waiting h.queued (some (link.send.count, data)) results
    have hpos := List.length_pos_iff.mpr hdata
    rw [sendData_eq link results env hlong]
    generalize link.send.sendCache link.udp (some (link.send.count, data)) results = r at *
    obtain ⟨send, ret⟩ := r
    dsimp only at hwhole hwaiting ⊢
    have hqueued : link.udp = false → Queued (send.waitRest data ret).wait_send := fun hudp =>
      waitRest_waiting (hwaiting.queued hudp) data hwaiting.sent
    by_cases hless : ret < (data.length : ℤ)
    · rw [if_pos hless]
      -- the request is sent in part, or not at all: the write filter is still in both masks
      have hw : .write ∈ link.events := by
        by_contra hw
        have hall := hwhole hw
        clear hlong
        omega
      exact ⟨hqueued, fun hne => absurd hconn hne, fun _ => ⟨hconnected, Finset.mem_insert_self _ _⟩, hclosed,
        fun _ => Or.inr hconnected, fun _ _ => hmaking, fun _ _ => (h.masks hsocket hw).ctrlAdd env _⟩
    · rw [if_neg hless]
      have hnil : (send.waitRest data ret).wait_send = [] := by
        rw [waitRest_all send (Int.not_lt.mp hless)]
        apply hwaiting.sent
        clear hlong
        dsimp only
        omega
      exact ⟨hqueued, fun hne => absurd hconn hne, fun hne => absurd hnil hne, hclosed,
        fun _ => Or.inr hconnected, fun _ _ => hmaking, fun _ hw => absurd hw (Finset.notMem_erase _ _)⟩

/-- **`OutputNotify`**.
SOURCE: mt_net.cpp:1396-1443 -/
theorem InterestSettled.outputNotify (h : InterestSettled link) (results : List WritevResult) (env : KqEnv) :
    (link.outputNotify results env).send.closed = true ∨ InterestSettled (link.outputNotify results env) := by
  -- after the first part, no handler waits for the connection
  have hdone : InterestSettled link.connectDone ∧ link.connectDone.wait_connect = [] ∧
      link.connectDone.connecting = false := by
    unfold InterestLink.connectDone
    cases hconnecting : link.connecting with
    | true =>
      have hsocket := h.socket (Or.inl hconnecting)
      exact ⟨⟨h.queued, fun hne => absurd rfl hne, fun hne => ⟨rfl, (h.sends hne).2⟩,
        fun hneg => absurd (hsocket.symm.trans hneg) Bool.false_ne_true, fun _ => Or.inr rfl,
        fun _ hno => (by cases hno), h.masks⟩, rfl, rfl⟩
    | false =>
      refine ⟨h, ?_, hconnecting⟩
      by_contra hne
      exact Bool.false_ne_true (hconnecting.symm.trans (h.conns hne).2.1)
  obtain ⟨hsettled, hconn, hconnecting⟩ := hdone
  unfold InterestLink.outputNotify
  generalize link.connectDone = link' at *
  have hwaiting := sendCache_waiting hsettled.queued none results
  have hmaking : ∀ {p : Prop}, link'.connecting = true → p := fun hyes =>
    absurd (hconnecting.symm.trans hyes) Bool.false_ne_true
  dsimp only
  split
  · exact Or.inl rfl
  · split
    · rename_i hnil
      exact Or.inr ⟨hwaiting.queued, fun hne => absurd hconn hne, fun hne => absurd hnil hne, hsettled.closed,
        hsettled.opened, fun _ => hmaking, fun _ hw => absurd hw (Finset.notMem_erase _ _)⟩
    · rename_i hne
      exact Or.inr ⟨hwaiting.queued, hsettled.conns, fun _ => hsettled.sends fun hnil => hne (hwaiting.none hnil),
        hsettled.closed, hsettled.opened, fun _ => hmaking, hsettled.masks⟩

/-- Handlers that leave their lists. -/
theorem InterestSettled.leave (h : InterestSettled link) (conns sends : List ℕ) :
    InterestSettled (link.leave conns sends) := by
  have hfewer : ∀ {α : Type} {p : α → Bool} {l : List α}, l.filter p ≠ [] → l ≠ [] := by
    rintro α p l hne rfl
    exact hne rfl
  exact ⟨fun hudp => (h.queued hudp).sublist List.filter_sublist, fun hne => h.conns (hfewer hne),
    fun hne => h.sends (hfewer hne), h.closed, h.opened, h.making, h.masks⟩

/-- **One step** of a link, which may be destroyed. -/
theorem InterestSettled.step (h : link.send.closed = true ∨ InterestSettled link) {op : InterestStep}
    (hsafe : InterestSafe link op) :
    (link.step op).send.closed = true ∨ InterestSettled (link.step op) := by
  unfold InterestLink.step
  cases hclosed : link.send.closed with
  | true => exact Or.inl hclosed
  | false =>
    have h := h.resolve_left (by rw [hclosed]; exact Bool.false_ne_true)
    rw [if_neg Bool.false_ne_true]
    cases op with
    | connect id answer established => exact Or.inr (h.waitConnect id answer established hsafe)
    | send data results env => exact Or.inr (h.waitSend hsafe)
    | output results env => exact h.outputNotify results env
    | input fails env conns sends =>
      cases fails with
      | true => exact Or.inl rfl
      | false => exact Or.inr (h.leave conns sends)
    | timeout conns sends => exact Or.inr (h.leave conns sends)

theorem interest_right (h : link.send.closed = true ∨ InterestSettled link) : Awaited link := by
  rcases h with hclosed | h
  · exact fun hopen => absurd (hclosed.symm.trans hopen) Bool.false_ne_true.symm
  · exact h.awaited

/-- **A queued request is going to be retried** in every run in which no request is sent in part after the
write filter was given up, and no socket is made for a link with the descriptor 0.
SOURCE: mt_net.cpp:833-880, 1082-1115, 1396-1443; kqueue_proxy.cpp:168-311 -/
theorem queued_requests_awaited (udp : Bool) (proxy : KqueueProxy) {ops : List InterestStep}
    (hsafe : AllSteps InterestLink.step InterestSafe (InterestLink.init udp proxy) ops) :
    AllSteps InterestLink.step InterestRight (InterestLink.init udp proxy) ops :=
  AllSteps.imp (I := fun link => link.send.closed = true ∨ InterestSettled link)
    (fun _ _ h hs => InterestSettled.step h hs) (fun _ _ h hs => interest_right (InterestSettled.step h hs))
    (Or.inr (InterestSettled.of_closed rfl rfl (show (-1 : BitVec 32).slt 0 = true by decide) rfl rfl)) hsafe

/-- A socket with descriptor 5, and a kqueue that refuses nothing. -/
def calmAnswer : SockAnswer := ⟨5, true, false, fun _ => {}⟩

/-- A request that is sent in part when the connection is there at once, and one that is sent whole later. -/
theorem queued_request_awaited :
    AllSteps InterestLink.step InterestRight (InterestLink.init false (initKqueue 1000))
      [.connect 0 calmAnswer true, .send [1, 2] [.accepted 1] (fun _ => {}), .output [.accepted 1] (fun _ => {}),
        .send [3, 4] [.accepted 2] (fun _ => {})] :=
  queued_requests_awaited false (initKqueue 1000) (by decide)

/-- The connection is made, and the write filter is given up; a request that is sent in part then waits without
it. -/
theorem partial_request_not_awaited :
    ¬ AllSteps InterestLink.step InterestRight (InterestLink.init false (initKqueue 1000))
      [.connect 0 calmAnswer false, .output [] (fun _ => {}), .output [.accepted 0] (fun _ => {}),
        .send [1, 2] [.accepted 1] (fun _ => {})] := by
  rintro ⟨-, -, -, hawaited, -⟩
  have hlistens := hawaited (by decide) (by decide)
  exact absurd hlistens (by decide)

end FStack.Analysis
