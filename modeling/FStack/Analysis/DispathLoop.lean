import FStack.Model.TcpDispath
import FStack.Analysis.CacheFifo

/-!
# The loop that cuts responses out

The buffer that the callback is shown has the first bytes of the cache.  A turn of the loop of `DispathTcp` that
goes on makes this buffer bigger, which it can become up to 100 MB, or the cache smaller; so the loop ends,
whatever the callback answers.
-/

set_option autoImplicit false

namespace FStack.Analysis

open FStack.Model FStack.Model.TcpLink

/-! ## The cache and the buffer -/

/-- INTERNAL: skipping data leaves a good cache.
SOURCE: mt_cache.cpp:243-246 -/
theorem skipData_good {io : CacheState} (hgood : CacheGood io) (len : ℕ) :
    CacheGood (io.step (.skipData len)) ∧ (io.step (.skipData len)).content = io.content.drop len := by
  have hdone := call_skipData hgood len
  have hmade : (io.step (.skipData len)).pool.made = io.pool.made := by
    have hloop := copyOutLoop_copiedOut hgood.counted.ready hgood.counted.sized len
    rw [← hgood.count] at hloop
    exact hloop.made
  have hrest : (io.step (.skipData len)).content = io.content.drop len := by
    have hqueue := hdone.queue
    unfold putIn takenOut at hqueue
    dsimp only at hqueue
    rw [List.append_nil] at hqueue
    nth_rewrite 1 [← List.take_append_drop len io.content] at hqueue
    exact (List.append_cancel_left hqueue).symm
  refine ⟨⟨hdone.counted, hdone.hands, ?_, ?_⟩, hrest⟩
  · rw [hrest, List.length_drop]
    exact (Nat.sub_le _ _).trans_lt hgood.bytes
  · rw [hmade]
    exact hgood.made

/-- The buffer of a link has the first bytes of the cache. -/
structure Copied (content : List UInt8) (buff : RspBuff) : Prop where
  small : buff.size ≤ 100 * 1024 * 1024
  mem : buff.mem = content.take buff.data_len
  data_len : buff.mem.length = buff.data_len
  size : buff.data_len ≤ buff.size

/-- More of the cache is copied behind what is there. -/
theorem Copied.readOn {io : CacheState} (hgood : CacheGood io) {buff : RspBuff}
    (h : Copied io.content buff) :
    buff.readOn io.cache = ⟨buff.size, (io.content.take buff.size).length, io.content.take buff.size⟩ := by
  have hsplit : io.content.take buff.size =
      io.content.take buff.data_len ++ (io.content.drop buff.data_len).take (buff.size - buff.data_len) := by
    have hsum : buff.size = buff.data_len + (buff.size - buff.data_len) := by
      have hle := h.size
      omega
    rw [hsum, List.take_add, Nat.add_sub_cancel_left]
  unfold RspBuff.readOn
  rw [hgood.right.reads, hsplit, List.length_append, ← h.mem, h.data_len]

theorem Copied.new {content : List UInt8} : Copied content (RspBuff.new 512) :=
  ⟨by decide, rfl, rfl, Nat.zero_le _⟩

theorem copied_take (content : List UInt8) {n size : ℕ} (hn : n ≤ size) (hsmall : size ≤ 100 * 1024 * 1024) :
    Copied content ⟨size, (content.take n).length, content.take n⟩ := by
  refine ⟨hsmall, ?_, rfl, (List.length_take_le n content).trans hn⟩
  rw [List.length_take, List.take_eq_take_min]

/-- What was copied stays right when the cache is read into. -/
theorem Copied.append {content : List UInt8} {buff : RspBuff} (h : Copied content buff) (more : List UInt8) :
    Copied (content ++ more) buff := by
  refine ⟨h.small, ?_, h.data_len, h.size⟩
  have hle : buff.data_len ≤ content.length := by
    have hlen := congrArg List.length h.mem
    rw [h.data_len, List.length_take] at hlen
    omega
  rw [List.take_append_of_le_length hle]
  exact h.mem

/-! ## The loop ends -/

variable {check_session : List UInt8 → CheckResult} {link : TcpLink} {registered : List ℕ}

/-- A link whose loop can be followed. -/
structure Running (link : TcpLink) : Prop where
  good : CacheGood link.io
  opened : link.busy = true → link.closed = false
  small : ∀ buff ∈ link.rsp_buff, buff.size ≤ 100 * 1024 * 1024

/-- A bound on the turns that are left: the buffer grows up to 100 MB for every byte of the cache. -/
def turnsLeft (link : TcpLink) : ℕ :=
  link.io.content.length * (100 * 1024 * 1024 + 1) +
    (100 * 1024 * 1024 - (link.rsp_buff.map RspBuff.size).getD 0)

/-- A turn that goes on makes the bound smaller. -/
structure Progress (link link' : TcpLink) : Prop where
  running : Running link'
  fewer : link'.busy = true → turnsLeft link' < turnsLeft link

theorem step_turn (hopened : link.closed = false) (hbusy : link.busy = true) (mallocs : Bool × Bool) :
    link.step check_session (.turn registered mallocs) = link.turn check_session registered mallocs := by
  unfold TcpLink.step
  rw [if_neg (Bool.eq_false_iff.mp hopened)]
  dsimp only
  rw [if_pos hbusy]

/-- INTERNAL: a turn that ends the loop. -/
theorem Running.over (h : Running link) {link' : TcpLink} (hio : link'.io = link.io)
    (hover : link'.busy = false) (hsmall : ∀ buff ∈ link'.rsp_buff, buff.size ≤ 100 * 1024 * 1024) :
    Progress link link' := by
  refine ⟨⟨hio ▸ h.good, ?_, hsmall⟩, ?_⟩
  · intro hbusy
    rw [hover] at hbusy
    cases hbusy
  · intro hbusy
    rw [hover] at hbusy
    cases hbusy

variable {buff : RspBuff}

/-- A buffer that is too small is replaced, if there is memory. -/
theorem reserve_of_lt {size : ℕ} (hless : buff.size < size) (malloc : Bool) :
    buff.reserve size malloc = if malloc then { buff with size := size } else buff := by
  unfold RspBuff.reserve
  rw [if_neg (Nat.not_le.mpr hless)]

/-- INTERNAL: a buffer that is enlarged is bigger.
SOURCE: mt_net.cpp:1211-1242 -/
theorem enlarge_progress (h : Running link) (hbusy : link.busy = true) (hsize : buff.size ≤ 100 * 1024 * 1024)
    (hold : (link.rsp_buff.map RspBuff.size).getD 0 ≤ buff.size) (need_len : ℕ) :
    Progress link (link.enlarge buff need_len true) := by
  unfold TcpLink.enlarge
  dsimp only
  generalize buff.wanted need_len = wanted
  by_cases hstop : wanted ≤ buff.size ∨ 100 * 1024 * 1024 < wanted
  · rw [if_pos hstop]
    exact h.over rfl rfl (by rintro b ⟨⟩; exact hsize)
  · rw [if_neg hstop]
    rw [not_or, not_le, not_lt] at hstop
    have hsmall : ∀ b ∈ some { buff with size := wanted }, b.size ≤ 100 * 1024 * 1024 := by
      rintro b ⟨⟩
      exact hstop.2
    rw [reserve_of_lt hstop.1, if_pos rfl]
    split
    · exact h.over rfl rfl hsmall
    · refine ⟨⟨h.good, fun _ => h.opened hbusy, hsmall⟩, fun _ => ?_⟩
      unfold turnsLeft
      dsimp only [Option.map_some, Option.getD_some]
      omega

/-- INTERNAL: a cache out of which a message is cut is smaller.
SOURCE: mt_net.cpp:1244-1268 -/
theorem cut_progress (h : Running link) (hbusy : link.busy = true) (hsize : buff.size ≤ 100 * 1024 * 1024)
    (hfull : link.io.cache.len ≠ 0) {len : ℕ} (hlen : 0 < len) (sid : ℕ) : Progress link (link.cut buff len sid registered).1 := by
  unfold TcpLink.cut
  split
  · exact h.over rfl rfl (by rintro b ⟨⟩; exact hsize)
  · obtain ⟨hgood, hrest⟩ := skipData_good h.good len
    have hprogress : Progress link { link with io := link.io.step (.skipData len), rsp_buff := none } := by
      refine ⟨⟨hgood, fun _ => h.opened hbusy, by rintro b ⟨⟩⟩, fun _ => ?_⟩
      unfold turnsLeft
      dsimp only [Option.map_none, Option.getD_none]
      rw [h.good.len] at hfull
      rw [hrest, List.length_drop]
      have hfewer : link.io.content.length - len + 1 ≤ link.io.content.length := by omega
      have hmul := Nat.mul_le_mul_right (100 * 1024 * 1024 + 1) hfewer
      rw [Nat.add_mul] at hmul
      omega
    dsimp only
    split
    · exact hprogress
    · exact hprogress

/-- INTERNAL: with memory, a turn that goes on makes the buffer bigger or the cache smaller.
SOURCE: mt_net.cpp:1191-1274 -/
theorem turn_progress (h : Running link) (hbusy : link.busy = true) :
    Progress link (link.turn check_session registered (true, true)).1 := by
  unfold TcpLink.turn
  by_cases hempty : link.io.cache.len = 0
  · rw [if_pos hempty]
    exact h.over rfl rfl h.small
  · rw [if_neg hempty]
    obtain ⟨buff, hbuff, hsize, hold⟩ : ∃ buff, link.extendRecvRsp true = some buff ∧
        buff.size ≤ 100 * 1024 * 1024 ∧ (link.rsp_buff.map RspBuff.size).getD 0 ≤ buff.size := by
      unfold TcpLink.extendRecvRsp
      cases hrsp : link.rsp_buff with
      | some old => exact ⟨_, rfl, h.small old hrsp, le_rfl⟩
      | none => exact ⟨_, rfl, Nat.le_of_ble_eq_true rfl, Nat.zero_le _⟩
    dsimp only
    rw [hbuff]
    dsimp only
    by_cases hneg : (check_session buff.mem).ret < 0
    · rw [if_pos hneg]
      exact h.over rfl rfl (by rintro b ⟨⟩; exact hsize)
    rw [if_neg hneg]
    by_cases hzero : (check_session buff.mem).ret = 0
    · rw [if_pos hzero]
      exact enlarge_progress h hbusy hsize hold _
    · rw [if_neg hzero]
      exact cut_progress h hbusy hsize hempty (by omega) _

/-- **The loop of `DispathTcp` ends**, whatever the callback does.
SOURCE: mt_net.cpp:1191-1274 -/
theorem turns_end (h : Running link) :
    ∃ turns, ((fun link : TcpLink =>
      (link.step check_session (.turn registered (true, true))).1)^[turns] link).busy = false := by
  induction hleft : turnsLeft link using Nat.strong_induction_on generalizing link with
  | _ left ih =>
    cases hbusy : link.busy with
    | false => exact ⟨0, hbusy⟩
    | true =>
      obtain ⟨hrunning, hless⟩ := @turn_progress check_session link registered h hbusy
      rw [← step_turn (h.opened hbusy) hbusy] at hrunning hless
      cases hnext : (link.step check_session (.turn registered (true, true))).1.busy with
      | false => exact ⟨1, hnext⟩
      | true =>
        rw [← hleft] at ih
        obtain ⟨turns, hturns⟩ := ih _ (hless hnext) hrunning rfl
        exact ⟨turns + 1, hturns⟩

end FStack.Analysis
