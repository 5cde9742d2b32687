import FStack.Analysis.DispathLoop
import Mathlib.Data.List.Infix

/-!
# Every response is cut out intact

The bytes that a link receives are a row of messages, and the callback knows the length of the first one from
some of its bytes on.  Three lengths are compared: what the buffer can take, what the callback is shown, and
what is in the cache.  A turn of the loop of `DispathTcp` serves the first message right if and only if this
fits into the buffer by the time that its length is known.
-/

set_option autoImplicit false

namespace FStack.Analysis

open FStack.Model FStack.Model.TcpLink FStack.Prelude

/-! ## What is expected -/

/-- A message, with the session that it belongs to. -/
structure TcpMessage where
  bytes : List UInt8
  sid : ℕ
deriving DecidableEq, Repr

/-- The messages one after the other. -/
def stream (messages : List TcpMessage) : List UInt8 := messages.flatMap TcpMessage.bytes

/-- The callback is right about a stream: whatever it is shown of the rest from a message on, it gives the
length and the session of this message, or 0 if it has not seen all of it. -/
def Frames (check_session : List UInt8 → CheckResult) : List TcpMessage → Prop
  | [] => True
  | m :: messages =>
    (0 < m.bytes.length ∧ m.bytes.length < 2 ^ 31) ∧
    (∀ shown, shown <+: stream (m :: messages) →
      ((check_session shown).ret = 0 ∧ shown.length < m.bytes.length) ∨
        ((check_session shown).ret = m.bytes.length ∧ (check_session shown).sid = m.sid)) ∧
    Frames check_session messages

/-- A link, and the messages that did not come out of it yet. -/
structure Reception where
  link : TcpLink
  pending : List TcpMessage

namespace Reception

variable (check_session : List UInt8 → CheckResult)

def init (messages : List TcpMessage) : Reception := ⟨TcpLink.init, messages⟩

/-- The unread bytes of the link. -/
def content (s : Reception) : List UInt8 := s.link.io.content

/-- The size that the buffer for the response has, or will have. -/
def bufferSize (s : Reception) : ℕ := (s.link.rsp_buff.map RspBuff.size).getD 512

/-- The bytes that the callback is shown in a turn. -/
def shown (s : Reception) : List UInt8 := s.content.take s.bufferSize

/-- The message that a step takes out. -/
def event (s : Reception) (op : InputStep) : Option Dispathed := (s.link.step check_session op).2

def step (s : Reception) (op : InputStep) : Reception where
  link := (s.link.step check_session op).1
  pending := if (s.event check_session op).isSome then s.pending.tail else s.pending

/-- The first message is in the cache with all its bytes. -/
def WholeFirst (s : Reception) : Prop := ∃ m ∈ s.pending.head?, m.bytes.length ≤ s.content.length

end Reception

/-- What is read belongs to the messages, and can be counted in 32 bits. -/
def Arrives (check_session : List UInt8 → CheckResult) (s : Reception) : InputStep → Prop
  | .recv mallocs results =>
    s.link.busy = false →
      (s.step check_session (.recv mallocs results)).link.closed = false ∧
      (s.step check_session (.recv mallocs results)).content <+: stream s.pending ∧
      Fits s.link.io (.tcpRecv mallocs results)
  | .turn _ _ => True

/-- A message is handed to its session with all its bytes and no others, in a buffer that can take them; or it
is skipped whole, if there is no session. -/
def Intact (registered : List ℕ) (m : TcpMessage) : Dispathed → Prop
  | .handed sid buff =>
    sid = m.sid ∧ sid ∈ registered ∧ buff.data_len ≤ buff.size ∧ buff.data_len = m.bytes.length ∧
      buff.mem.take buff.data_len = m.bytes
  | .skipped sid len => sid = m.sid ∧ sid ∉ registered ∧ len = m.bytes.length

/-- A step serves the messages: only the first one is taken out, intact; the cache begins with the next one;
no message that is whole is left waiting.  A turn that goes on takes a message out or shows the callback other
bytes next time, and the loop ends. -/
structure DispathRight (check_session : List UInt8 → CheckResult) (s : Reception) (op : InputStep) : Prop where
  opened : (s.step check_session op).link.closed = false
  intact : ∀ e ∈ s.event check_session op, ∃ m ∈ s.pending.head?, Intact op.registered m e
  aligned : (s.step check_session op).content <+: stream (s.step check_session op).pending
  waits : (s.step check_session op).link.busy = false → ¬ (s.step check_session op).WholeFirst
  moves : ∀ registered mallocs, op = .turn registered mallocs → (s.step check_session op).link.busy = true →
    s.event check_session op = none → (s.step check_session op).shown ≠ s.shown
  ends : ∀ registered, ∃ turns, ((fun link : TcpLink =>
    (link.step check_session (.turn registered (true, true))).1)^[turns]
      (s.step check_session op).link).busy = false

/-- A turn does not ask for memory in vain; while the length of the message is not known, the buffer can still
grow if the message is there; when it is known, the message fits into the buffer, and what is in the cache
below 2^31 bytes. -/
structure TurnSafe (s : Reception) (m : TcpMessage) (registered : List ℕ) (mallocs : Bool × Bool)
    (r : CheckResult) (wanted : ℕ) : Prop where
  first : s.link.rsp_buff = none → mallocs.1 = true
  grows : r.ret = 0 → s.bufferSize < wanted → wanted ≤ 100 * 1024 * 1024 →
    s.bufferSize < s.content.length → mallocs.2 = true
  header : r.ret = 0 → m.bytes.length ≤ s.content.length →
    s.bufferSize < wanted ∧ wanted ≤ 100 * 1024 * 1024
  counted : r.ret ≠ 0 → m.bytes.length ≤ s.content.length → s.content.length < 2 ^ 31
  fits : r.ret ≠ 0 → m.bytes.length ≤ s.content.length → m.sid ∈ registered →
    m.bytes.length ≤ s.bufferSize

instance (s : Reception) (m : TcpMessage) (registered : List ℕ) (mallocs : Bool × Bool) (r : CheckResult)
    (wanted : ℕ) : Decidable (TurnSafe s m registered mallocs r wanted) :=
  decidable_of_iff ((s.link.rsp_buff = none → mallocs.1 = true) ∧
      (r.ret = 0 → s.bufferSize < wanted → wanted ≤ 100 * 1024 * 1024 →
        s.bufferSize < s.content.length → mallocs.2 = true) ∧
      (r.ret = 0 → m.bytes.length ≤ s.content.length →
        s.bufferSize < wanted ∧ wanted ≤ 100 * 1024 * 1024) ∧
      (r.ret ≠ 0 → m.bytes.length ≤ s.content.length → s.content.length < 2 ^ 31) ∧
      (r.ret ≠ 0 → m.bytes.length ≤ s.content.length → m.sid ∈ registered →
        m.bytes.length ≤ s.bufferSize))
    ⟨fun ⟨first, grows, header, counted, fits⟩ => ⟨first, grows, header, counted, fits⟩,
      fun h => ⟨h.first, h.grows, h.header, h.counted, h.fits⟩⟩

/-- The buffer with what the callback is shown in a turn. -/
def Reception.shownBuff (s : Reception) : RspBuff := ⟨s.bufferSize, s.shown.length, s.shown⟩

/-- The condition on the state before a turn. -/
def DispathSafe (check_session : List UInt8 → CheckResult) (s : Reception) : InputStep → Prop
  | .recv _ _ => True
  | .turn registered mallocs =>
    s.link.busy = true → s.content ≠ [] → ∀ m ∈ s.pending.head?,
      TurnSafe s m registered mallocs (check_session s.shown)
        (s.shownBuff.wanted (check_session s.shown).need_len)

instance (check_session : List UInt8 → CheckResult) (s : Reception) :
    DecidablePred (Arrives check_session s)
  | .recv mallocs results => inferInstanceAs (Decidable (s.link.busy = false →
      (s.step check_session (.recv mallocs results)).link.closed = false ∧
      (s.step check_session (.recv mallocs results)).content <+: stream s.pending ∧
      (s.link.io.step (.tcpRecv mallocs results)).content.length < 2 ^ 32 ∧
      (s.link.io.step (.tcpRecv mallocs results)).pool.made < 2 ^ 32))
  | .turn _ _ => inferInstanceAs (Decidable True)

instance (check_session : List UInt8 → CheckResult) (s : Reception) :
    DecidablePred (DispathSafe check_session s)
  | .recv _ _ => inferInstanceAs (Decidable True)
  | .turn registered mallocs => inferInstanceAs (Decidable (s.link.busy = true → s.content ≠ [] →
      ∀ m ∈ s.pending.head?, TurnSafe s m registered mallocs (check_session s.shown)
        (s.shownBuff.wanted (check_session s.shown).need_len)))

/-! ## What a link keeps -/

variable {check_session : List UInt8 → CheckResult} {s : Reception}

/-- What a link keeps, as long as it serves the messages. -/
structure ReceptionSettled (check_session : List UInt8 → CheckResult) (s : Reception) : Prop where
  good : CacheGood s.link.io
  opened : s.link.closed = false
  aligned : s.content <+: stream s.pending
  frames : Frames check_session s.pending
  copied : ∀ buff ∈ s.link.rsp_buff, Copied s.content buff
  idle : s.link.busy = false → ¬ s.WholeFirst

/-- INTERNAL: the buffer of a turn, if there is memory for the first one.
SOURCE: mt_net.cpp:1129-1143 -/
theorem extendRecvRsp_eq (h : ReceptionSettled check_session s) {malloc : Bool}
    (hfirst : s.link.rsp_buff = none → malloc = true) :
    s.link.extendRecvRsp malloc = some s.shownBuff := by
  unfold TcpLink.extendRecvRsp Reception.shownBuff Reception.shown Reception.bufferSize Reception.content
  cases hbuff : s.link.rsp_buff with
  | some buff =>
    dsimp only [Option.map_some, Option.getD_some]
    rw [(h.copied buff hbuff).readOn h.good]
  | none =>
    rw [hfirst hbuff]
    dsimp only [Option.map_none, Option.getD_none]
    rw [if_pos rfl, Copied.new.readOn h.good]
    rfl

theorem bufferSize_le (h : ReceptionSettled check_session s) : s.bufferSize ≤ 100 * 1024 * 1024 := by
  unfold Reception.bufferSize
  cases hbuff : s.link.rsp_buff with
  | some buff => exact (h.copied buff hbuff).small
  | none => exact Nat.le_of_ble_eq_true rfl

/-! ## One turn -/

section Turn

variable {registered : List ℕ} {mallocs : Bool × Bool} {m : TcpMessage} {messages : List TcpMessage}
  {buff : RspBuff}

theorem ReceptionSettled.running (h : ReceptionSettled check_session s) : Running s.link :=
  ⟨h.good, fun _ => h.opened, fun buff hbuff => (h.copied buff hbuff).small⟩

/-- What a turn does, from what the loop of the link does. -/
theorem turn_step (h : ReceptionSettled check_session s) (hbusy : s.link.busy = true) {link' : TcpLink}
    {event : Option Dispathed} (hturn : s.link.turn check_session registered mallocs = (link', event)) :
    s.step check_session (.turn registered mallocs) =
        ⟨link', if event.isSome then s.pending.tail else s.pending⟩ ∧
      s.event check_session (.turn registered mallocs) = event := by
  have hstep : s.link.step check_session (.turn registered mallocs) = (link', event) :=
    (step_turn h.opened hbusy mallocs).trans hturn
  unfold Reception.step Reception.event
  rw [hstep]
  exact ⟨rfl, rfl⟩

/-- INTERNAL: a turn in which the link is closed does not serve the messages. -/
theorem turn_fail (h : ReceptionSettled check_session s) (hbusy : s.link.busy = true) {link' : TcpLink}
    {event : Option Dispathed} (hturn : s.link.turn check_session registered mallocs = (link', event))
    (hclosed : link'.closed = true) : ¬ DispathRight check_session s (.turn registered mallocs) := by
  intro hright
  have hopened := hright.opened
  rw [(turn_step h hbusy hturn).1] at hopened
  exact Bool.false_ne_true (hopened.symm.trans hclosed)

/-- INTERNAL: a turn after which the link waits for more. -/
theorem turn_wait (h : ReceptionSettled check_session s) (hbusy : s.link.busy = true) {rsp : Option RspBuff}
    (hrsp : ∀ buff ∈ rsp, Copied s.content buff)
    (hturn : s.link.turn check_session registered mallocs = ({ s.link with rsp_buff := rsp }.wait, none)) :
    (DispathRight check_session s (.turn registered mallocs) ↔ ¬ s.WholeFirst) ∧
      (¬ s.WholeFirst → ReceptionSettled check_session (s.step check_session (.turn registered mallocs))) := by
  obtain ⟨hstep, hevent⟩ := turn_step h hbusy hturn
  have hkept : ¬ s.WholeFirst →
      ReceptionSettled check_session (s.step check_session (.turn registered mallocs)) := by
    intro hwhole
    rw [hstep]
    exact ⟨h.good, h.opened, h.aligned, h.frames, hrsp, fun _ => hwhole⟩
  refine ⟨⟨?_, ?_⟩, hkept⟩
  · intro hright
    have hwaits := hright.waits
    rw [hstep] at hwaits
    exact hwaits rfl
  · intro hwhole
    have hsettled := hkept hwhole
    refine ⟨hsettled.opened, ?_, hsettled.aligned, hsettled.idle, ?_, fun _ => turns_end hsettled.running⟩
    · rw [hevent]
      rintro e ⟨⟩
    · intro _ _ _ hgo
      rw [hstep] at hgo
      cases hgo

/-- INTERNAL: a turn after which the callback is asked again. -/
theorem turn_again (h : ReceptionSettled check_session s) (hbusy : s.link.busy = true)
    (hbuff : Copied s.content buff)
    (hturn : s.link.turn check_session registered mallocs = ({ s.link with rsp_buff := some buff }, none)) :
    (DispathRight check_session s (.turn registered mallocs) ↔ s.content.take buff.size ≠ s.shown) ∧
      ReceptionSettled check_session (s.step check_session (.turn registered mallocs)) := by
  obtain ⟨hstep, hevent⟩ := turn_step h hbusy hturn
  have hsettled : ReceptionSettled check_session (s.step check_session (.turn registered mallocs)) := by
    rw [hstep]
    refine ⟨h.good, h.opened, h.aligned, h.frames, ?_, fun hidle => ?_⟩
    · rintro b ⟨⟩
      exact hbuff
    · exact absurd (hbusy.symm.trans hidle) Bool.false_ne_true.symm
  have hshown : (s.step check_session (.turn registered mallocs)).shown = s.content.take buff.size := by
    rw [hstep]
    rfl
  refine ⟨⟨?_, ?_⟩, hsettled⟩
  · intro hright
    have hmoves := hright.moves _ _ rfl (by rw [hstep]; exact hbusy) hevent
    rwa [hshown] at hmoves
  · intro hmore
    refine ⟨hsettled.opened, ?_, hsettled.aligned, hsettled.idle, ?_, fun _ => turns_end hsettled.running⟩
    · rw [hevent]
      rintro e ⟨⟩
    · intro _ _ _ _ _
      rwa [hshown]

/-- INTERNAL: a turn that takes the first message out. -/
theorem turn_cut (h : ReceptionSettled check_session s) (hbusy : s.link.busy = true)
    (hpending : s.pending = m :: messages) {e : Dispathed}
    (hturn : s.link.turn check_session registered mallocs =
      ({ s.link with io := s.link.io.step (.skipData m.bytes.length), rsp_buff := none }, some e)) :
    (DispathRight check_session s (.turn registered mallocs) ↔ Intact registered m e) ∧
      ReceptionSettled check_session (s.step check_session (.turn registered mallocs)) := by
  obtain ⟨hstep, hevent⟩ := turn_step h hbusy hturn
  obtain ⟨hgood, hrest⟩ := skipData_good h.good m.bytes.length
  have haligned := h.aligned
  have hframes := h.frames
  rw [hpending] at haligned hframes
  rw [hpending] at hstep
  have hsettled : ReceptionSettled check_session (s.step check_session (.turn registered mallocs)) := by
    rw [hstep]
    refine ⟨hgood, h.opened, ?_, hframes.2.2, ?_, fun hidle => ?_⟩
    · have hdrop := haligned.drop m.bytes.length
      have hstream : (stream (m :: messages)).drop m.bytes.length = stream messages := List.drop_left
      rw [hstream] at hdrop
      change (s.link.io.step (.skipData m.bytes.length)).content <+: stream messages
      rw [hrest]
      exact hdrop
    · rintro b ⟨⟩
    · exact absurd (hbusy.symm.trans hidle) Bool.false_ne_true.symm
  refine ⟨⟨?_, ?_⟩, hsettled⟩
  · intro hright
    obtain ⟨first, hfirst, hintact⟩ := hright.intact e (by rw [hevent]; rfl)
    rw [hpending] at hfirst
    cases hfirst
    exact hintact
  · intro hintact
    refine ⟨hsettled.opened, ?_, hsettled.aligned, hsettled.idle, ?_, fun _ => turns_end hsettled.running⟩
    · rw [hevent]
      rintro e' ⟨⟩
      exact ⟨m, by rw [hpending]; rfl, hintact⟩
    · intro _ _ _ _ hnone
      rw [hevent] at hnone
      cases hnone

theorem wholeFirst_cons (hpending : s.pending = m :: messages) :
    s.WholeFirst ↔ m.bytes.length ≤ s.content.length := by
  unfold Reception.WholeFirst
  rw [hpending]
  simp

theorem shownBuff_copied (h : ReceptionSettled check_session s) : Copied s.content s.shownBuff :=
  copied_take s.content le_rfl (bufferSize_le h)

/-- INTERNAL: a turn in which the callback does not know the length of the message.
SOURCE: mt_net.cpp:1211-1242 -/
theorem turn_header (h : ReceptionSettled check_session s) (hbusy : s.link.busy = true)
    (hpending : s.pending = m :: messages) (hfirst : s.link.rsp_buff = none → mallocs.1 = true)
    (hret : (check_session s.shown).ret = 0) (hshort : s.shown.length < m.bytes.length)
    (hturn : s.link.turn check_session registered mallocs =
      (s.link.enlarge s.shownBuff (check_session s.shown).need_len mallocs.2, none)) :
    let safe := TurnSafe s m registered mallocs (check_session s.shown)
      (s.shownBuff.wanted (check_session s.shown).need_len)
    (DispathRight check_session s (.turn registered mallocs) ↔ safe) ∧
      (safe → ReceptionSettled check_session (s.step check_session (.turn registered mallocs))) := by
  have hwhole := wholeFirst_cons hpending
  have hshown : s.shown.length = min s.bufferSize s.content.length := List.length_take
  have hlen : s.link.io.cache.len = s.content.length := h.good.len
  have hsize : s.shownBuff.size = s.bufferSize := rfl
  unfold TcpLink.enlarge at hturn
  dsimp only at hturn
  rw [hsize] at hturn
  generalize s.shownBuff.wanted (check_session s.shown).need_len = wanted at hturn
  intro safe
  have hsafe : safe ↔ (s.bufferSize < wanted → wanted ≤ 100 * 1024 * 1024 →
        s.bufferSize < s.content.length → mallocs.2 = true) ∧
      (m.bytes.length ≤ s.content.length → s.bufferSize < wanted ∧ wanted ≤ 100 * 1024 * 1024) := by
    constructor
    · exact fun hs => ⟨hs.grows hret, hs.header hret⟩
    · exact fun hs => ⟨hfirst, fun _ => hs.1, fun _ => hs.2, fun hne => absurd hret hne, fun hne => absurd hret hne⟩
  rw [hsafe]
  by_cases hstop : wanted ≤ s.bufferSize ∨ 100 * 1024 * 1024 < wanted
  · -- the buffer stays as it is, and the link waits for more
    rw [if_pos hstop] at hturn
    obtain ⟨hright, hkept⟩ := turn_wait h hbusy (by rintro b ⟨⟩; exact shownBuff_copied h) hturn
    rw [hright, hwhole] at *
    have hiff : ¬ m.bytes.length ≤ s.content.length ↔
        (s.bufferSize < wanted → wanted ≤ 100 * 1024 * 1024 → s.bufferSize < s.content.length → mallocs.2 = true) ∧
        (m.bytes.length ≤ s.content.length → s.bufferSize < wanted ∧ wanted ≤ 100 * 1024 * 1024) := by
      constructor
      · exact fun hno => ⟨fun h₁ h₂ => by omega, fun hyes => absurd hyes hno⟩
      · intro hs hyes
        have hgrow := hs.2 hyes
        omega
    exact ⟨hiff, fun hs => hkept (hiff.mpr hs)⟩
  · rw [if_neg hstop] at hturn
    rw [not_or, not_le, not_lt] at hstop
    have hcopied : Copied s.content (s.shownBuff.reserve wanted mallocs.2) := by
      rw [reserve_of_lt hstop.1]
      split
      · exact copied_take s.content hstop.1.le hstop.2
      · exact shownBuff_copied h
    have hdata : (s.shownBuff.reserve wanted mallocs.2).data_len = s.shown.length := by
      rw [reserve_of_lt hstop.1]
      split <;> rfl
    rw [hdata, hlen] at hturn
    by_cases hall : s.content.length ≤ s.shown.length
    · -- all that is there was shown
      rw [if_pos hall] at hturn
      obtain ⟨hright, hkept⟩ := turn_wait h hbusy (by rintro b ⟨⟩; exact hcopied) hturn
      have hno : ¬ s.WholeFirst := by
        rw [hwhole]
        omega
      refine ⟨hright.trans ⟨fun _ => ⟨fun _ _ hmore => ?_, fun _ => hstop⟩, fun _ => hno⟩, fun _ => hkept hno⟩
      omega
    · rw [if_neg hall] at hturn
      obtain ⟨hright, hkept⟩ := turn_again h hbusy hcopied hturn
      refine ⟨hright.trans ?_, fun _ => hkept⟩
      cases hmalloc : mallocs.2 with
      | true =>
        refine ⟨fun _ => ⟨fun _ _ _ => rfl, fun _ => hstop⟩, fun _ heq => ?_⟩
        rw [reserve_of_lt hstop.1, if_pos rfl] at heq
        have hlength := congrArg List.length heq
        rw [List.length_take, hshown] at hlength
        dsimp only at hlength
        omega
      | false =>
        refine ⟨fun hmore => absurd ?_ hmore, fun hs => absurd (hs.1 hstop.1 hstop.2 (by omega)) Bool.false_ne_true⟩
        rw [reserve_of_lt hstop.1, if_neg Bool.false_ne_true]
        rfl

/-- INTERNAL: a turn in which the callback knows the length of the message.
SOURCE: mt_net.cpp:1244-1268 -/
theorem turn_known (h : ReceptionSettled check_session s) (hbusy : s.link.busy = true)
    (hpending : s.pending = m :: messages) (hfirst : s.link.rsp_buff = none → mallocs.1 = true)
    (hret : (check_session s.shown).ret = m.bytes.length)
    (hturn : s.link.turn check_session registered mallocs =
      s.link.cut s.shownBuff m.bytes.length m.sid registered) :
    let safe := TurnSafe s m registered mallocs (check_session s.shown)
      (s.shownBuff.wanted (check_session s.shown).need_len)
    (DispathRight check_session s (.turn registered mallocs) ↔ safe) ∧
      (safe → ReceptionSettled check_session (s.step check_session (.turn registered mallocs))) := by
  have hwhole := wholeFirst_cons hpending
  have hframes := h.frames
  rw [hpending] at hframes
  obtain ⟨⟨hpos, hsmall⟩, -, -⟩ := hframes
  have hlen : s.link.io.cache.len = s.content.length := h.good.len
  have hbytes : s.content.length < 2 ^ 32 := h.good.bytes
  have hne : (check_session s.shown).ret ≠ 0 := by omega
  intro safe
  have hsafe : safe ↔ (m.bytes.length ≤ s.content.length → s.content.length < 2 ^ 31) ∧
      (m.bytes.length ≤ s.content.length → m.sid ∈ registered → m.bytes.length ≤ s.bufferSize) := by
    constructor
    · exact fun hs => ⟨hs.counted hne, hs.fits hne⟩
    · exact fun hs => ⟨hfirst, fun h0 => absurd h0 hne, fun h0 => absurd h0 hne, fun _ => hs.1, fun _ => hs.2⟩
  rw [hsafe]
  unfold TcpLink.cut at hturn
  rw [hlen] at hturn
  by_cases hcounted : s.content.length < 2 ^ 31
  · rw [int32_natCast hcounted] at hturn
    by_cases hshort : s.content.length < m.bytes.length
    · rw [if_pos (Int.ofNat_lt.mpr hshort)] at hturn
      obtain ⟨hright, hkept⟩ := turn_wait h hbusy (by rintro b ⟨⟩; exact shownBuff_copied h) hturn
      have hno : ¬ s.WholeFirst := by
        rw [hwhole]
        omega
      exact ⟨hright.trans ⟨fun _ => ⟨fun hyes => by omega, fun hyes => by omega⟩, fun _ => hno⟩, fun _ => hkept hno⟩
    · rw [if_neg (fun hlt => hshort (Int.ofNat_lt.mp hlt))] at hturn
      rw [not_lt] at hshort
      dsimp only at hturn
      by_cases hsid : m.sid ∈ registered
      · rw [if_pos hsid] at hturn
        obtain ⟨hright, hkept⟩ := turn_cut h hbusy hpending hturn
        refine ⟨hright.trans ⟨fun hi => ⟨fun _ => hcounted, fun _ _ => hi.2.2.1⟩, fun hs => ?_⟩, fun _ => hkept⟩
        have hroom := hs.2 hshort hsid
        refine ⟨rfl, hsid, hroom, rfl, ?_⟩
        change s.shown.take m.bytes.length = m.bytes
        unfold Reception.shown
        rw [List.take_take, Nat.min_eq_left hroom]
        have haligned := h.aligned
        rw [hpending] at haligned
        have hprefixed : m.bytes <+: s.content :=
          List.prefix_of_prefix_length_le (List.prefix_append _ _) haligned hshort
        exact (List.prefix_iff_eq_take.mp hprefixed).symm
      · rw [if_neg hsid] at hturn
        obtain ⟨hright, hkept⟩ := turn_cut h hbusy hpending hturn
        refine ⟨hright.trans ⟨fun _ => ⟨fun _ => hcounted, fun _ hin => absurd hin hsid⟩, fun _ => ?_⟩, fun _ => hkept⟩
        exact ⟨rfl, hsid, rfl⟩
  · -- the length of the cache is read as a negative number
    rw [not_lt] at hcounted
    have hneg : int32 (s.content.length : ℤ) < m.bytes.length := by
      have hle : int32 (s.content.length : ℤ) = s.content.length - 2 ^ 32 := by
        unfold int32
        rw [Int.bmod_def]
        omega
      omega
    rw [if_pos hneg] at hturn
    obtain ⟨hright, hkept⟩ := turn_wait h hbusy (by rintro b ⟨⟩; exact shownBuff_copied h) hturn
    have hyes : s.WholeFirst := by
      rw [hwhole]
      omega
    refine ⟨hright.trans ⟨fun hno => absurd hyes hno, fun hs => ?_⟩, fun hs => ?_⟩
    · exact absurd (hs.1 (by omega)) (Nat.not_lt.mpr hcounted)
    · exact absurd (hs.1 (by omega)) (Nat.not_lt.mpr hcounted)

/-- **A turn** serves the messages if and only if the first message fits into the buffer when its
length is known.
SOURCE: mt_net.cpp:1191-1274 -/
theorem turn_right_iff (h : ReceptionSettled check_session s) (hbusy : s.link.busy = true) :
    (DispathRight check_session s (.turn registered mallocs) ↔
        DispathSafe check_session s (.turn registered mallocs)) ∧
      (DispathSafe check_session s (.turn registered mallocs) →
        ReceptionSettled check_session (s.step check_session (.turn registered mallocs))) := by
  have haligned := h.aligned
  have hframes := h.frames
  have hlen : s.link.io.cache.len = s.content.length := h.good.len
  by_cases hempty : s.content = []
  · have hturn : s.link.turn check_session registered mallocs =
        ({ s.link with rsp_buff := s.link.rsp_buff }.wait, none) := by
      unfold TcpLink.turn
      rw [if_pos (hlen.trans (List.length_eq_zero_iff.mpr hempty))]
    obtain ⟨hright, hkept⟩ := turn_wait h hbusy h.copied hturn
    have hno : ¬ s.WholeFirst := by
      rintro ⟨first, hfirst, hle⟩
      cases hpending : s.pending with
      | nil =>
        rw [hpending] at hfirst
        cases hfirst
      | cons m messages =>
        rw [hpending] at hfirst hframes
        cases hfirst
        have hpos := hframes.1.1
        rw [hempty] at hle
        exact absurd hpos (Nat.not_lt.mpr hle)
    exact ⟨hright.trans ⟨fun _ _ hne => absurd hempty hne, fun _ => hno⟩, fun _ => hkept hno⟩
  · cases hpending : s.pending with
    | nil =>
      rw [hpending] at haligned
      exact absurd (List.prefix_nil.mp haligned) hempty
    | cons m messages =>
      rw [hpending] at haligned hframes
      have hsafe : DispathSafe check_session s (.turn registered mallocs) ↔
          TurnSafe s m registered mallocs (check_session s.shown)
            (s.shownBuff.wanted (check_session s.shown).need_len) := by
        unfold DispathSafe
        dsimp only
        rw [hpending]
        constructor
        · exact fun hs => hs hbusy hempty m rfl
        · rintro hs - - first ⟨⟩
          exact hs
      have hfull : ¬ s.link.io.cache.len = 0 := by
        rw [hlen]
        exact fun hzero => hempty (List.length_eq_zero_iff.mp hzero)
      rw [hsafe]
      by_cases hfirst : s.link.rsp_buff = none → mallocs.1 = true
      · have hturn : s.link.turn check_session registered mallocs =
            if (check_session s.shown).ret < 0 then
              ({ s.link with rsp_buff := some s.shownBuff }.fail, none)
            else if (check_session s.shown).ret = 0 then
              (s.link.enlarge s.shownBuff (check_session s.shown).need_len mallocs.2, none)
            else s.link.cut s.shownBuff (check_session s.shown).ret.toNat (check_session s.shown).sid registered := by
          unfold TcpLink.turn
          rw [if_neg hfull, extendRecvRsp_eq h hfirst]
          rfl
        rcases hframes.2.1 s.shown ((List.take_prefix _ _).trans haligned) with ⟨hret, hshort⟩ | ⟨hret, hsid⟩
        · rw [if_neg (by omega), if_pos hret] at hturn
          exact turn_header h hbusy hpending hfirst hret hshort hturn
        · have hpos := hframes.1.1
          rw [if_neg (by omega), if_neg (by omega), hsid, hret, Int.toNat_natCast] at hturn
          exact turn_known h hbusy hpending hfirst hret hturn
      · -- there is no memory for the first buffer, and the link is closed
        rw [Classical.not_imp] at hfirst
        obtain ⟨hnone, hmalloc⟩ := hfirst
        have hturn : s.link.turn check_session registered mallocs = (s.link.fail, none) := by
          unfold TcpLink.turn TcpLink.extendRecvRsp
          rw [if_neg hfull, hnone]
          dsimp only
          rw [if_neg hmalloc]
        have hno : ¬ TurnSafe s m registered mallocs (check_session s.shown)
            (s.shownBuff.wanted (check_session s.shown).need_len) := fun hs => hmalloc (hs.first hnone)
        exact ⟨iff_of_false (turn_fail h hbusy hturn rfl) hno, fun hs => absurd hs hno⟩

end Turn

/-! ## Runs -/

/-- A step that leaves the link as it is. -/
theorem step_same (h : ReceptionSettled check_session s) {op : InputStep}
    (hstep : s.link.step check_session op = (s.link, none))
    (hidle : s.link.busy = true → ∀ registered mallocs, op ≠ .turn registered mallocs) :
    DispathRight check_session s op ∧ s.step check_session op = s := by
  have hsame : s.step check_session op = s ∧ s.event check_session op = none := by
    unfold Reception.step Reception.event
    rw [hstep]
    exact ⟨rfl, rfl⟩
  refine ⟨⟨?_, ?_, ?_, ?_, ?_, fun _ => ?_⟩, hsame.1⟩
  · rw [hsame.1]
    exact h.opened
  · rw [hsame.2]
    rintro e ⟨⟩
  · rw [hsame.1]
    exact h.aligned
  · rw [hsame.1]
    exact h.idle
  · rintro registered mallocs rfl hbusy
    rw [hsame.1] at hbusy
    exact absurd rfl (hidle hbusy registered mallocs)
  · rw [hsame.1]
    exact turns_end h.running

/-- INTERNAL: reading for an idle link.
SOURCE: mt_net.cpp:1352-1383 -/
theorem recv_right (h : ReceptionSettled check_session s) (hbusy : s.link.busy = false) {mallocs : List Bool}
    {results : List TRWCache.RecvResult} (harrives : Arrives check_session s (.recv mallocs results)) :
    DispathRight check_session s (.recv mallocs results) ∧
      ReceptionSettled check_session (s.step check_session (.recv mallocs results)) := by
  have hlink : s.link.step check_session (.recv mallocs results) = (s.link.recv mallocs results, none) := by
    unfold TcpLink.step
    rw [if_neg (Bool.eq_false_iff.mp h.opened)]
    dsimp only
    rw [if_neg (Bool.eq_false_iff.mp hbusy)]
  have hstep : s.step check_session (.recv mallocs results) = ⟨s.link.recv mallocs results, s.pending⟩ := by
    unfold Reception.step Reception.event
    rw [hlink]
    rfl
  obtain ⟨hopened, haligned, hfits⟩ := harrives hbusy
  rw [hstep] at hopened haligned
  have hrecv : s.link.recv mallocs results =
      { s.link with io := s.link.io.step (.tcpRecv mallocs results), busy := true } := by
    unfold TcpLink.recv at hopened ⊢
    dsimp only at hopened ⊢
    split at hopened
    · cases hopened
    · rename_i hret
      rw [if_neg hret]
      rfl
  rw [hrecv] at hstep haligned
  have hcontent : (s.link.io.step (.tcpRecv mallocs results)).content =
      s.link.io.content ++ putIn s.link.io (.tcpRecv mallocs results) :=
    (call_tcpRecv h.good mallocs results).queue.symm
  have hsettled : ReceptionSettled check_session (s.step check_session (.recv mallocs results)) := by
    rw [hstep]
    refine ⟨h.good.step trivial hfits, h.opened, haligned, h.frames, ?_, fun hidle => ?_⟩
    · intro buff hbuff
      change Copied (s.link.io.step (.tcpRecv mallocs results)).content buff
      rw [hcontent]
      exact (h.copied buff hbuff).append _
    · cases hidle
  refine ⟨⟨hsettled.opened, ?_, hsettled.aligned, hsettled.idle, ?_, fun _ => turns_end hsettled.running⟩, hsettled⟩
  · unfold Reception.event
    rw [hlink]
    rintro e ⟨⟩
  · rintro _ _ ⟨⟩

/-- **One step.** -/
theorem dispath_step_iff (h : ReceptionSettled check_session s) {op : InputStep}
    (harrives : Arrives check_session s op) :
    (DispathRight check_session s op ↔ DispathSafe check_session s op) ∧
      (DispathSafe check_session s op → ReceptionSettled check_session (s.step check_session op)) := by
  have hclosed := Bool.eq_false_iff.mp h.opened
  cases op with
  | recv mallocs results =>
    cases hbusy : s.link.busy with
    | false =>
      obtain ⟨hright, hsettled⟩ := recv_right h hbusy harrives
      exact ⟨iff_of_true hright trivial, fun _ => hsettled⟩
    | true =>
      have hstep : s.link.step check_session (.recv mallocs results) = (s.link, none) := by
        unfold TcpLink.step
        rw [if_neg hclosed]
        dsimp only
        rw [if_pos hbusy]
      obtain ⟨hright, hsame⟩ := step_same h hstep (by rintro - _ _ ⟨⟩)
      exact ⟨iff_of_true hright trivial, fun _ => hsame.symm ▸ h⟩
  | turn registered mallocs =>
    cases hbusy : s.link.busy with
    | false =>
      have hstep : s.link.step check_session (.turn registered mallocs) = (s.link, none) := by
        unfold TcpLink.step
        rw [if_neg hclosed]
        dsimp only
        rw [if_neg (Bool.eq_false_iff.mp hbusy)]
      have hidle : ¬ s.link.busy = true := Bool.eq_false_iff.mp hbusy
      obtain ⟨hright, hsame⟩ := step_same h hstep fun hb => absurd hb hidle
      exact ⟨iff_of_true hright fun hb => absurd hb hidle, fun _ => hsame.symm ▸ h⟩
    | true => exact turn_right_iff h hbusy

theorem receptionSettled_init {messages : List TcpMessage} (hframes : Frames check_session messages) :
    ReceptionSettled check_session (Reception.init messages) := by
  refine ⟨cacheGood_init (by decide), rfl, List.nil_prefix, hframes, ?_, fun _ => ?_⟩
  · rintro b ⟨⟩
  · rintro ⟨first, hfirst, hle⟩
    cases messages with
    | nil => cases hfirst
    | cons m messages =>
      cases hfirst
      exact absurd hframes.1.1 (Nat.not_lt.mpr hle)

/-- **In a run over a stream of messages, every message is cut out intact if and only if** at every
turn the message at the front fits into the buffer when its length is known, and the buffer can still grow while
it is not known; there has to be memory, and less than 2^31 bytes in the cache.
SOURCE: mt_net.cpp:1129-1274, 1352-1394; mt_cache.cpp:70-89, 640-686 -/
theorem dispathTcp_intact_iff {messages : List TcpMessage} (hframes : Frames check_session messages)
    (ops : List InputStep) :
    AllSteps (Reception.step check_session)
        (fun s op => Arrives check_session s op ∧ DispathRight check_session s op) (Reception.init messages) ops ↔
      AllSteps (Reception.step check_session)
        (fun s op => Arrives check_session s op ∧ DispathSafe check_session s op) (Reception.init messages) ops := by
  apply allSteps_iff (I := ReceptionSettled check_session) (D := fun _ => True) _ _
    (receptionSettled_init hframes) fun _ _ => trivial
  · exact fun s op h _ hsafe => (dispath_step_iff h hsafe.1).2 hsafe.2
  · exact fun s op h _ => and_congr_right fun harrives => (dispath_step_iff h harrives).1

/-- A callback for messages that begin with their length in two bytes, and then the session. -/
def checkHeader : List UInt8 → CheckResult
  | hi :: lo :: sid :: _ => { ret := 256 * hi.toNat + lo.toNat, sid := sid.toNat }
  | _ => { ret := 0 }

/-- Such a message. -/
def Headed (m : TcpMessage) : Prop :=
  ∃ hi lo sid body, m = ⟨hi :: lo :: sid :: body, sid.toNat⟩ ∧ m.bytes.length = 256 * hi.toNat + lo.toNat

theorem frames_checkHeader {messages : List TcpMessage} (h : ∀ m ∈ messages, Headed m) :
    Frames checkHeader messages := by
  induction messages with
  | nil => trivial
  | cons m messages ih =>
    rw [List.forall_mem_cons] at h
    obtain ⟨⟨hi, lo, sid, body, rfl, hlen⟩, hrest⟩ := h
    have hbytes := hi.toNat_lt
    have hlo := lo.toNat_lt
    have hlength : (hi :: lo :: sid :: body).length = body.length + 3 := rfl
    refine ⟨⟨Nat.succ_pos _, by omega⟩, fun shown hshown => ?_, ih hrest⟩
    match shown with
    | [] => exact Or.inl ⟨rfl, Nat.succ_pos _⟩
    | [_] => exact Or.inl ⟨rfl, by dsimp only [List.length_cons, List.length_nil]; omega⟩
    | [_, _] => exact Or.inl ⟨rfl, by dsimp only [List.length_cons, List.length_nil]; omega⟩
    | a :: b :: c :: rest =>
      obtain ⟨ha, hafter⟩ := List.cons_prefix_cons.mp hshown
      obtain ⟨hb, hafter⟩ := List.cons_prefix_cons.mp hafter
      obtain ⟨hc, -⟩ := List.cons_prefix_cons.mp hafter
      rw [hlen, ha, hb, hc]
      exact Or.inr ⟨rfl, rfl⟩

/-- Two messages, of which the second one arrives in two pieces and has no session. -/
theorem dispathTcp_two_messages :
    AllSteps (Reception.step checkHeader)
      (fun s op => Arrives checkHeader s op ∧ DispathRight checkHeader s op)
      (Reception.init [⟨[0, 4, 7, 1], 7⟩, ⟨[0, 5, 9, 1, 2], 9⟩])
      [.recv [true] [⟨some [0, 4, 7, 1, 0, 5], false⟩], .turn [7] (true, true), .turn [7] (true, true),
        .recv [] [⟨some [9, 1, 2], false⟩], .turn [7] (true, true), .turn [7] (true, true)] := by
  refine (dispathTcp_intact_iff (frames_checkHeader ?_) _).mpr (by decide)
  simp only [List.forall_mem_cons]
  exact ⟨⟨0, 4, 7, [1], rfl, rfl⟩, ⟨0, 5, 9, [1, 2], rfl, rfl⟩, fun _ h => absurd h List.not_mem_nil⟩

/-- A message of 513 bytes arrives whole; the handler of its session gets a buffer of 512 bytes with a
`data_len` of 513. -/
theorem dispathTcp_long_message :
    let message : TcpMessage := ⟨2 :: 1 :: 7 :: List.replicate 510 1, 7⟩
    let ops : List InputStep :=
      [.recv [true] [⟨some message.bytes, false⟩], .turn [7] (true, true)]
    Frames checkHeader [message] ∧
      AllSteps (Reception.step checkHeader) (Arrives checkHeader) (Reception.init [message]) ops ∧
      ¬ AllSteps (Reception.step checkHeader) (DispathRight checkHeader) (Reception.init [message]) ops := by
  refine ⟨?_, by decide +kernel, ?_⟩
  · apply frames_checkHeader
    simp only [List.forall_mem_cons]
    exact ⟨⟨2, 1, 7, List.replicate 510 1, rfl, by decide +kernel⟩, fun _ h => absurd h List.not_mem_nil⟩
  · rintro ⟨-, hright, -⟩
    have hevent : ((Reception.init [⟨2 :: 1 :: 7 :: List.replicate 510 1, 7⟩]).step checkHeader
        (.recv [true] [⟨some (2 :: 1 :: 7 :: List.replicate 510 1), false⟩])).event checkHeader
          (.turn [7] (true, true)) =
        some (.handed 7 ⟨512, 513, 2 :: 1 :: 7 :: List.replicate 509 1⟩) := by decide +kernel
    obtain ⟨m, -, -, -, hroom, -⟩ := hright.intact _ hevent
    exact absurd hroom (by decide)

end FStack.Analysis
