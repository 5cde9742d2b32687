import FStack.Analysis.ToolExchange

/-!
# When the tools marshal right

A call that is sent has its regions in the buffer and apart from each other, shows the server the bytes of its
caller and gives the caller what the server has left, if and only if it is `ToolTransfer.Sound`
(`marshalling_right_iff`).  The regions are apart wherever one is laid out behind the other; in `recvfrom` they
are not, since its pointers are moved in units of `struct sockaddr` and of `socklen_t`.
-/

set_option autoImplicit false

namespace FStack.Analysis

open FStack.Model FStack.Prelude

variable {α : Type} {before : ℕ → UInt8}
variable {a : NgArgs} {inet6 : Bool} {extra : Option ℕ} {t : TakenMsg α} {base : ℕ}
variable {mem optval : ℕ → UInt8} {optlen : BitVec 32} {get : Bool}

/-! ## `ngctl` -/

theorem sent_ngctl (h : ToolTransfer.Sent (.ngctl a) inet6 extra t) : a.call.size % 2 ^ 64 ≤ MSG_BUF_LEN := by
  have hsend : (marshalNgctl a.call t.msg).send = true := h.2
  rw [marshalNgctl, t.len_eq] at hsend
  by_contra hlt
  rw [if_pos (by omega)] at hsend
  cases hsend

/-- The fields of the argument structure do not overlap. -/
theorem ngFields_apart (a : NgArgs) (base : ℕ) :
    (a.fields base).Pairwise fun v w => v.region.Apart w.region := by
  cases a with
  | socket sa | close ca => exact List.Pairwise.nil
  | bind s name namelen | connect s name namelen =>
    simp [NgArgs.fields, Chunk.region, Region.Apart]
  | sendto s buf len flags dest_addr tolen =>
    simp [NgArgs.fields, Chunk.region, Region.Apart]
  | recvfrom s buf len flags src_addr fromlen =>
    simp [NgArgs.fields, Chunk.region, Region.Apart]

theorem ngFields_inside (a : NgArgs) (base : ℕ) :
    ∀ w ∈ a.fields base, w.region.Inside ⟨base, NgArgs.argsLen a⟩ := by
  cases a with
  | socket sa | close ca => exact fun w hw => absurd hw List.not_mem_nil
  | bind s name namelen | connect s name namelen =>
    simp [NgArgs.fields, Chunk.region, Region.Inside, NgArgs.argsLen]
  | sendto s buf len flags dest_addr tolen =>
    simp [NgArgs.fields, Chunk.region, Region.Inside, NgArgs.argsLen]
  | recvfrom s buf len flags src_addr fromlen =>
    simp [NgArgs.fields, Chunk.region, Region.Inside, NgArgs.argsLen]

/-- What has been set and copied is seen if the regions are apart. -/
theorem ng_seen (h : (ngExchange a base).regions.Pairwise Region.Apart) :
    ∀ w ∈ (ngExchange a base).seen,
      readAt ((ngExchange a base).sent before) w.addr w.elems.length = w.elems := by
  cases a with
  | socket sa | close ca => exact readAt_placeAll (List.pairwise_singleton _ _)
  | bind s name namelen | connect s name namelen =>
    refine readAt_placeAll_append (ngFields_apart _ base) (ngFields_inside _ base) ?_
    simpa [ngExchange, NgArgs.call, NgCall.writes, MsgWrite.at, MsgPtr.add, NgArgs.copies, Chunk.region,
      NgArgs.argsLen] using h
  | sendto s buf len flags dest_addr tolen =>
    refine readAt_placeAll_append (ngFields_apart _ base) (ngFields_inside _ base) ?_
    simpa [ngExchange, NgArgs.call, NgCall.writes, MsgWrite.at, MsgPtr.add, NgArgs.copies, Chunk.region,
      NgArgs.argsLen, Nat.add_assoc] using h
  | recvfrom s buf len flags src_addr fromlen =>
    refine readAt_placeAll_append (ngFields_apart _ base) (ngFields_inside _ base) ?_
    simpa [ngExchange, NgArgs.call, NgCall.writes, MsgWrite.at, MsgPtr.add, NgArgs.copies, Chunk.region,
      NgArgs.argsLen, Nat.add_assoc] using h

/-- What the fields are set to is still there when the server has answered. -/
theorem ng_kept {reply : Exchange.Reply (ngExchange a base) before}
    (h : (ngExchange a base).regions.Pairwise Region.Apart) :
    ∀ w ∈ a.fields base, readAt reply.mem w.addr w.elems.length = w.elems := by
  intro w hw
  have hsent : readAt ((ngExchange a base).sent before) w.addr w.elems.length = w.elems :=
    ng_seen h w (List.mem_append_left _ hw)
  rcases ngFields_inside a base w hw with hempty | ⟨hlo, hhi⟩
  · have hnil : w.elems = [] := List.eq_nil_of_length_eq_zero hempty
    rw [hnil]
    rfl
  · exact (readAt_eq_of_inside reply.kept hlo hhi).trans hsent

/-- A pointer that is stored in a field is read back. -/
theorem readLe_pointer {q v : ℕ} (h : readAt mem q (leBytes 8 v).length = leBytes 8 v) (hv : v < 2 ^ 64) :
    readLe mem q 8 = v := by
  rw [length_leBytes] at h
  rw [readLe, h, ofLeBytes_leBytes]
  exact Nat.mod_eq_of_lt hv

/-- What `recvfrom` copies back, once the length of the address is known. -/
theorem recv_returned_iff {s len flags fromlen} {buf src_addr : ℕ → UInt8} (hfits : base + MSG_BUF_LEN ≤ 2 ^ 64)
    {reply : Exchange.Reply (ngExchange (.recvfrom s buf len flags src_addr fromlen) base) before}
    (hinside : ∀ r ∈ (ngExchange (.recvfrom s buf len flags src_addr fromlen) base).regions,
      r.Inside ⟨base, MSG_BUF_LEN⟩)
    (hapart : (ngExchange (.recvfrom s buf len flags src_addr fromlen) base).regions.Pairwise Region.Apart) :
    List.Forall₂
        (fun bytes l => bytes = readAt reply.mem l.region.addr l.count ∧ l.count ≤ l.region.len)
        ((NgArgs.recvfrom s buf len flags src_addr fromlen).copiedBack base reply.mem)
        (NgArgs.left (.recvfrom s buf len flags src_addr fromlen) base reply.mem) ↔
      readLe reply.mem (base + 48 + 4 * (len.toNat + fromlen.toNat)) 4 ≤ fromlen.toNat := by
  have hkept : ∀ w ∈ NgArgs.fields base (.recvfrom s buf len flags src_addr fromlen),
      readAt reply.mem w.addr w.elems.length = w.elems := ng_kept hapart
  simp only [NgArgs.fields, List.forall_mem_cons] at hkept
  obtain ⟨-, hbuf, hlen, -, hfrom, hword, -⟩ := hkept
  simp only [ngExchange, NgArgs.call, NgCall.writes, MsgWrite.at, MsgPtr.add, List.map_cons, List.map_nil,
    List.forall_mem_cons, Nat.zero_add, Region.Inside] at hinside
  obtain ⟨-, -, hfromin, hwordin, -⟩ := hinside
  have hword := readLe_pointer hword (by omega)
  have hbuf := readLe_pointer hbuf (by omega)
  have hlen := readLe_pointer hlen len.isLt
  simp only [NgArgs.copiedBack, NgArgs.left, hword, hbuf, hlen, List.forall₂_cons, List.forall₂_nil_left_iff,
    and_true, le_refl, true_and]
  constructor
  · exact fun h => h.2
  · intro hle
    refine ⟨?_, hle⟩
    rcases Nat.eq_zero_or_pos fromlen.toNat with hzero | hpos
    · have hnone : readLe reply.mem (base + 48 + 4 * (len.toNat + fromlen.toNat)) 4 = 0 := by omega
      simp only [hnone, readAt_zero]
    · rw [readLe_pointer hfrom (by omega)]

/-- A call without results is right if its regions are. -/
theorem ng_right_iff_of_no_results {reply : Exchange.Reply (ngExchange a base) before}
    (hback : a.copiedBack base reply.mem = []) (hleft : NgArgs.left a base reply.mem = []) :
    (ngExchange a base).Right before reply ↔
      (∀ r ∈ (ngExchange a base).regions, r.Inside ⟨base, MSG_BUF_LEN⟩) ∧
        (ngExchange a base).regions.Pairwise Region.Apart := by
  have hright : (ngExchange a base).Right before reply ↔
      (∀ r ∈ (ngExchange a base).regions, r.Inside ⟨base, MSG_BUF_LEN⟩) ∧
        (ngExchange a base).regions.Pairwise Region.Apart ∧ (reply.result = 0 → True) := by
    refine Exchange.right_iff ng_seen fun _ _ => ?_
    show List.Forall₂ _ (a.copiedBack base reply.mem) (NgArgs.left a base reply.mem) ↔ True
    rw [hback, hleft]
    exact iff_true_intro .nil
  simpa using hright

theorem ng_right_iff (hsent : ToolTransfer.Sent (.ngctl a) inet6 extra t)
    (reply : Exchange.Reply (ngExchange a t.addr) before) :
    (ngExchange a t.addr).Right before reply ↔
      ToolTransfer.Sound (.ngctl a) extra t reply.result reply.mem := by
  have hsize := sent_ngctl hsent
  have hroom : MSG_BUF_LEN = 10112 := rfl
  cases a with
  | socket sa | close ca =>
    rw [ng_right_iff_of_no_results rfl rfl]
    refine iff_of_true ⟨?_, List.pairwise_singleton _ _⟩ trivial
    simp [ngExchange, NgArgs.call, NgCall.writes, MsgWrite.at, Region.Inside, hroom]
  | bind s name namelen | connect s name namelen =>
    have hlen := namelen.isLt
    have hfits : 24 + namelen.toNat ≤ MSG_BUF_LEN := by
      simp only [NgArgs.call, NgCall.size] at hsize
      omega
    rw [ng_right_iff_of_no_results rfl rfl]
    refine iff_of_true ⟨?_, ?_⟩ trivial
    · simp only [ngExchange, NgArgs.call, NgCall.writes, MsgWrite.at, MsgPtr.add, List.map_cons, List.map_nil,
        List.forall_mem_cons, Region.Inside]
      exact ⟨by omega, by omega, List.forall_mem_nil _⟩
    · simp [ngExchange, NgArgs.call, NgCall.writes, MsgWrite.at, MsgPtr.add, Region.Apart]
  | sendto s buf len flags dest_addr tolen =>
    have hlen := len.isLt
    have htolen := tolen.isLt
    simp only [NgArgs.call, NgCall.size] at hsize
    rw [ng_right_iff_of_no_results rfl rfl]
    simp only [ngExchange, NgArgs.call, NgCall.writes, MsgWrite.at, MsgPtr.add, List.map_cons, List.map_nil,
      List.forall_mem_cons, Region.Inside]
    constructor
    · rintro ⟨⟨-, hbuf, -⟩, -⟩
      show 48 + len.toNat + tolen.toNat < 2 ^ 64
      omega
    · intro hsound
      have hfits : 48 + len.toNat + tolen.toNat < 2 ^ 64 := hsound
      refine ⟨⟨by omega, by omega, by omega, List.forall_mem_nil _⟩, ?_⟩
      simp [Region.Apart]
      omega
  | recvfrom s buf len flags src_addr fromlen =>
    rw [Exchange.right_iff ng_seen (recv_returned_iff t.fits)]
    simp only [ngExchange, NgArgs.call, NgCall.writes, MsgWrite.at, MsgPtr.add, List.map_cons, List.map_nil,
      List.forall_mem_cons, Region.Inside, List.pairwise_cons, Region.Apart, ToolTransfer.Sound, RecvFits]
    constructor
    · rintro ⟨⟨-, -, hfrom, hword, -⟩, ⟨-, -, ⟨hapart, -⟩, -⟩, hret⟩
      exact ⟨⟨by omega, by omega, by omega⟩, hret⟩
    · rintro ⟨⟨hfrom, hword, hapart⟩, hret⟩
      refine ⟨⟨?_, ?_, ?_, ?_, List.forall_mem_nil _⟩, ⟨⟨?_, ?_, ?_, List.forall_mem_nil _⟩,
        ⟨?_, ?_, List.forall_mem_nil _⟩, ⟨?_, List.forall_mem_nil _⟩, List.forall_mem_nil _, .nil⟩, hret⟩
      all_goals omega

/-! ## `ipfw_ctl` -/

/-- A size that does not fit is refused unless it wraps to a small one. -/
theorem ipfwLen_large {optlen : ℕ} (hlt : MSG_BUF_LEN < 36 + optlen) (hwrap : 36 + optlen < 2 ^ 32) :
    MSG_BUF_LEN < (ipfwLen optlen % 2 ^ 64).toNat := by
  have hroom : MSG_BUF_LEN = 10112 := rfl
  unfold ipfwLen
  rw [Int.bmod_def]
  split <;> omega

/-- A length that is not refused is small, or so great that `len` has wrapped. -/
theorem sent_ipfw (h : ToolTransfer.Sent (.ipfw get optval optlen) inet6 extra t) :
    36 + optlen.toNat ≤ MSG_BUF_LEN ∨ 2 ^ 32 ≤ 36 + optlen.toNat := by
  have hsend : (marshalIpfw optlen.toNat t.msg).send = true := by
    have hsend := h.2
    cases get with
    | false => simpa only [ToolTransfer.call, ToolCall.marshal] using hsend
    | true => simpa only [ToolTransfer.call, ToolCall.marshal, Option.getD_some] using hsend
  rw [marshalIpfw, t.len_eq] at hsend
  by_contra hlt
  rw [if_pos (ipfwLen_large (by omega) (by omega))] at hsend
  cases hsend

theorem ipfw_right_iff (hsent : ToolTransfer.Sent (.ipfw get optval optlen) inet6 extra t)
    (reply : Exchange.Reply (ipfwExchange get optval optlen t.addr) before) :
    (ipfwExchange get optval optlen t.addr).Right before reply ↔
      ToolTransfer.Sound (.ipfw get optval optlen) extra t reply.result reply.mem := by
  have hsize := sent_ipfw hsent
  have hroom : MSG_BUF_LEN = 10112 := rfl
  have hseen : (ipfwExchange get optval optlen t.addr).regions.Pairwise Region.Apart →
      ∀ w ∈ (ipfwExchange get optval optlen t.addr).seen,
        readAt ((ipfwExchange get optval optlen t.addr).sent before) w.addr w.elems.length = w.elems := by
    intro hapart
    apply readAt_placeAll
    simpa [ipfwExchange, ipfwCopies, Chunk.region] using hapart
  have hreturned :
      List.Forall₂ (fun bytes l => bytes = readAt reply.mem l.region.addr l.count ∧ l.count ≤ l.region.len)
        ((ipfwExchange get optval optlen t.addr).copiedBack reply.mem)
        ((ipfwExchange get optval optlen t.addr).left reply.mem) ↔
      (get = true → readLe reply.mem (t.addr + optlen.toNat) 4 ≤ optlen.toNat) := by
    cases get with
    | false => simp [ipfwExchange, ipfwCopiedBack]
    | true => simp [ipfwExchange, ipfwCopiedBack]
  rw [Exchange.right_iff hseen fun _ _ => hreturned]
  simp only [ipfwExchange, List.forall_mem_cons, List.pairwise_cons, Region.Inside, Region.Apart,
    ToolTransfer.Sound]
  constructor
  · rintro ⟨⟨hval, -, -⟩, -, hret⟩
    exact ⟨by omega, hret⟩
  · rintro ⟨hfits, hret⟩
    exact ⟨⟨by omega, by omega, List.forall_mem_nil _⟩,
      ⟨⟨by omega, List.forall_mem_nil _⟩, List.forall_mem_nil _, .nil⟩, hret⟩

/-! ## `ioctl_va` -/

theorem iocparmLen_lt (com : ℕ) : iocparmLen com < 2 ^ 13 := Nat.mod_lt _ (by decide)

theorem sent_ioctl_memory {a : IoctlBytes} {offset : ℕ} {fits : offset + 8 ≤ iocparmLen (ioctlCommand a.com)}
    {cpy_mem : BitVec 64} {bytes : ℕ → UInt8} {clen : BitVec 64}
    (hmore : a.more = .memory offset fits cpy_mem bytes clen) (h : ToolTransfer.Sent (.ioctl a) inet6 extra t) :
    (a.size + clen.toNat) % 2 ^ 64 ≤ MSG_BUF_LEN := by
  have hcall : (ToolTransfer.ioctl a).call = .ioctl a.com (.memory offset clen.toNat) := by
    rw [ToolTransfer.call, IoctlBytes.call, hmore]
  have hsend := h.2
  rw [hcall, ToolCall.marshal, marshalIoctl, t.len_eq] at hsend
  by_contra hlt
  have hrefused : MSG_BUF_LEN < (iocparmLen (ioctlCommand a.com) + clen.toNat) % 2 ^ 64 := by
    rw [IoctlBytes.size] at hlt
    omega
  dsimp only at hsend
  split at hsend
  · cases hsend
  · split at hsend
    · cases hsend
    · cases hsend

/-- The server sees `data` with the pointer of the tool, and the memory. -/
theorem ioctl_seen {a : IoctlBytes} :
    ∀ w ∈ (ioctlExchange a base).seen,
      readAt ((ioctlExchange a base).sent before) w.addr w.elems.length = w.elems := by
  obtain ⟨com, data, more⟩ := a
  intro w hw
  cases more with
  | memory offset fits cpy_mem bytes clen =>
    rcases List.mem_cons.mp hw with rfl | hw
    · rw [length_readAt]
      exact (readAt_writeAt_of_disjoint (.inl (Nat.le_refl _))).trans
        (readAt_writeAt_writeAt before data base _ offset _)
    · obtain rfl := List.mem_singleton.mp hw
      exact readAt_writeAt_self _ _ _
  | none | family af =>
    obtain rfl := List.mem_singleton.mp hw
    exact readAt_writeAt_self _ _ _

/-- A part of `data` after all of it was copied back. -/
theorem readAt_copied {data : ℕ → UInt8} {n k j : ℕ} (h : k + j ≤ n) :
    readAt (writeAt data 0 (readAt mem base n)) k j = readAt mem (base + k) j := by
  have hpart : readAt (writeAt data 0 (readAt mem base n)) (0 + k) j = readAt mem (base + k) j :=
    readAt_writeAt_readAt h
  rwa [Nat.zero_add] at hpart

/-- A command with results gives back what the server has left. -/
theorem ioctl_returned (a : IoctlBytes) (base : ℕ) (mem : ℕ → UInt8) :
    List.Forall₂ (fun bytes l => bytes = readAt mem l.region.addr l.count ∧ l.count ≤ l.region.len)
      ((ioctlExchange a base).copiedBack mem) ((ioctlExchange a base).left mem) := by
  obtain ⟨com, data, more⟩ := a
  change List.Forall₂ _ (IoctlBytes.copiedBack _ base mem) (IoctlBytes.left _ base)
  rw [IoctlBytes.copiedBack, IoctlBytes.left]
  dsimp only
  split
  · cases more with
    | memory offset fits cpy_mem bytes clen =>
      have hfits : offset + 8 ≤ IoctlBytes.size ⟨com, data, .memory offset fits cpy_mem bytes clen⟩ := fits
      have hword : (leBytes 8 cpy_mem.toNat).length = 8 := length_leBytes 8 _
      refine .cons ⟨?_, Nat.le_refl _⟩ (.cons ⟨?_, Nat.le_refl _⟩ (.cons ⟨rfl, Nat.le_refl _⟩ .nil))
      · exact (readAt_writeAt_of_disjoint (.inl (by omega))).trans (readAt_copied (by omega))
      · exact (readAt_writeAt_of_disjoint (.inr (by omega))).trans (readAt_copied (by omega))
    | none | family af =>
      exact .cons ⟨readAt_copied (by omega), Nat.le_refl _⟩ .nil
  · exact .nil

theorem ioctl_right_iff {a : IoctlBytes} (hsent : ToolTransfer.Sent (.ioctl a) inet6 extra t)
    (reply : Exchange.Reply (ioctlExchange a t.addr) before) :
    (ioctlExchange a t.addr).Right before reply ↔
      ToolTransfer.Sound (.ioctl a) extra t reply.result reply.mem := by
  have hroom : MSG_BUF_LEN = 10112 := rfl
  have hcom : a.size < 2 ^ 13 := iocparmLen_lt _
  rw [Exchange.right_iff (fun _ => ioctl_seen) fun _ _ => iff_true_intro (ioctl_returned a t.addr reply.mem)]
  obtain ⟨com, data, more⟩ := a
  cases more with
  | memory offset fits cpy_mem bytes clen =>
    have hsize := sent_ioctl_memory rfl hsent
    have hclen := clen.isLt
    simp only [ioctlExchange, ToolTransfer.Sound, List.forall_mem_cons, List.pairwise_cons, Region.Inside,
      Region.Apart]
    constructor
    · rintro ⟨⟨-, hmem, -⟩, -⟩
      omega
    · intro hfits
      exact ⟨⟨by omega, by omega, List.forall_mem_nil _⟩,
        ⟨⟨by omega, List.forall_mem_nil _⟩, List.forall_mem_nil _, .nil⟩, fun _ => trivial⟩
  | none | family af =>
    refine iff_of_true ⟨?_, List.pairwise_singleton _ _, fun _ => trivial⟩ trivial
    simp only [ioctlExchange, List.forall_mem_cons, Region.Inside]
    exact ⟨by omega, List.forall_mem_nil _⟩

/-! ## `sysctl` -/

theorem sent_sysctl {a : SysctlBytes} (h : ToolTransfer.Sent (.sysctl a) inet6 extra t) :
    a.old.isSome = true → a.oldlenp.isSome = true := by
  have hvalid : (a.old.isSome && (a.oldlenp.map BitVec.toNat).isNone) = false := h.1
  cases hold : a.oldlenp with
  | some oldlen => exact fun _ => rfl
  | none =>
    intro hset
    rw [hold, hset] at hvalid
    cases hvalid

/-- What is copied lies in the regions that are meant. -/
theorem sysctl_fill_regions (a : SysctlBytes) (base : ℕ) :
    (a.fill base).1.map Chunk.region = (a.args.writes (.embedded 0 0)).map (MsgWrite.at base) := by
  obtain ⟨name, namelen, old, oldlenp, new, newlen⟩ := a
  cases new with
  | none =>
    cases oldlenp <;> cases old <;>
      simp [SysctlBytes.fill, SysctlBytes.args, SysctlArgs.writes, MsgWrite.at, MsgPtr.add, Chunk.region,
        Nat.add_assoc]
  | some new =>
    by_cases hlen : newlen = 0#64
    · subst hlen
      cases oldlenp <;> cases old <;>
        simp [SysctlBytes.fill, SysctlBytes.args, SysctlArgs.writes, MsgWrite.at, MsgPtr.add, Chunk.region,
          Nat.add_assoc]
    · have hpos : newlen.toNat ≠ 0 := fun hzero => hlen (BitVec.eq_of_toNat_eq hzero)
      cases oldlenp <;> cases old <;>
        simp [SysctlBytes.fill, SysctlBytes.args, SysctlArgs.writes, MsgWrite.at, MsgPtr.add, Chunk.region,
          Nat.add_assoc, hlen, hpos]

/-- Where `msg->sysctl` leads to. -/
theorem sysctl_fill_msg (a : SysctlBytes) (base : ℕ) :
    (a.fill base).2 =
      match a.oldlenp with
      | none => ⟨none, none⟩
      | some _ =>
        ⟨some (base + SysctlBytes.oldlenOff a),
          if a.old.isSome then some (base + SysctlBytes.oldlenOff a + 8) else none⟩ := by
  obtain ⟨name, namelen, old, oldlenp, new, newlen⟩ := a
  cases new with
  | none => cases oldlenp <;> cases old <;> simp [SysctlBytes.fill, SysctlBytes.oldlenOff]
  | some new =>
    by_cases hlen : newlen = 0#64
    · subst hlen
      cases oldlenp <;> cases old <;> simp [SysctlBytes.fill, SysctlBytes.oldlenOff]
    · cases oldlenp <;> cases old <;>
        simp [SysctlBytes.fill, SysctlBytes.oldlenOff, hlen, Nat.add_assoc]

/-- `sysctl` copies back as many bytes as the server says it has left. -/
theorem sysctl_returned_iff {a : SysctlBytes} (hold : a.old.isSome = true → a.oldlenp.isSome = true) (base : ℕ)
    (mem : ℕ → UInt8) :
    List.Forall₂ (fun bytes l => bytes = readAt mem l.region.addr l.count ∧ l.count ≤ l.region.len)
        (a.copiedBack (a.fill base).2 mem) (SysctlBytes.left a base mem) ↔
      (a.old.isSome = true → readLe mem (base + SysctlBytes.oldlenOff a) 8 ≤ a.args.oldlen) := by
  rw [sysctl_fill_msg]
  obtain ⟨name, namelen, old, oldlenp, new, newlen⟩ := a
  cases oldlenp with
  | none =>
    cases old with
    | none => simp [SysctlBytes.copiedBack, SysctlBytes.left]
    | some old => cases hold rfl
  | some oldlen =>
    cases old with
    | none => simp [SysctlBytes.copiedBack, SysctlBytes.left]
    | some old => simp [SysctlBytes.copiedBack, SysctlBytes.left, SysctlBytes.args, SysctlArgs.oldlen]

/-- The regions of `sysctl`, with the length of the new value as it is copied. -/
theorem sysctl_regions_cases (a : SysctlArgs) (base : ℕ) :
    ∃ newlen, SysctlArgs.written a = a.namelen * 4 + newlen +
        (match a.oldlenp with
          | none => 0
          | some oldlen => 8 + if a.old then oldlen else 0) ∧
      (a.writes (.embedded 0 0)).map (MsgWrite.at base) =
        ⟨base, a.namelen * 4⟩ ::
          ((if newlen = 0 then [] else [⟨base + a.namelen * 4, newlen⟩]) ++
            match a.oldlenp with
            | none => []
            | some oldlen =>
              ⟨base + a.namelen * 4 + newlen, 8⟩ ::
                if a.old then [⟨base + a.namelen * 4 + newlen + 8, oldlen⟩] else []) := by
  refine ⟨if a.new then a.newlen else 0, rfl, ?_⟩
  obtain ⟨namelen, old, oldlenp, new, newlen⟩ := a
  rw [SysctlArgs.writes]
  dsimp only
  generalize (if new then newlen else 0) = newlen
  rcases Nat.eq_zero_or_pos newlen with rfl | hpos
  · cases oldlenp <;> cases old <;> simp [MsgWrite.at, MsgPtr.add, Nat.add_assoc]
  · have hzero : newlen ≠ 0 := Nat.ne_of_gt hpos
    cases oldlenp <;> cases old <;> simp [MsgWrite.at, MsgPtr.add, Nat.add_assoc, hzero]

/-- The regions follow one another. -/
theorem sysctl_regions_apart (a : SysctlArgs) (base : ℕ) :
    ((a.writes (.embedded 0 0)).map (MsgWrite.at base)).Pairwise Region.Apart := by
  obtain ⟨newlen, -, hregions⟩ := sysctl_regions_cases a base
  rw [hregions]
  obtain ⟨namelen, old, oldlenp, new, newlen'⟩ := a
  rcases Nat.eq_zero_or_pos newlen with rfl | hpos
  · cases oldlenp <;> cases old <;> simp [Region.Apart]
  · have hzero : newlen ≠ 0 := Nat.ne_of_gt hpos
    cases oldlenp <;> cases old <;> simp [Region.Apart, hzero, Nat.add_assoc]

/-- They lie in the buffer if all that is copied fits. -/
theorem sysctl_regions_inside_iff (a : SysctlArgs) (base len : ℕ) :
    (∀ r ∈ (a.writes (.embedded 0 0)).map (MsgWrite.at base), r.Inside ⟨base, len⟩) ↔
      SysctlArgs.written a ≤ len := by
  obtain ⟨newlen, hwritten, hregions⟩ := sysctl_regions_cases a base
  rw [hregions, hwritten]
  obtain ⟨namelen, old, oldlenp, new, newlen'⟩ := a
  rcases Nat.eq_zero_or_pos newlen with rfl | hpos
  · cases oldlenp <;> cases old <;> simp [Region.Inside] <;> omega
  · have hzero : newlen ≠ 0 := Nat.ne_of_gt hpos
    cases oldlenp <;> cases old <;> simp [Region.Inside, hzero] <;> omega

/-- What is copied is counted, and 8 bytes more at most if there is a new value. -/
theorem sysctl_written_bounds (a : SysctlArgs) :
    SysctlArgs.written a ≤ a.size ∧ (a.new = true → a.size ≤ SysctlArgs.written a + 8) := by
  obtain ⟨namelen, old, oldlenp, new, newlen⟩ := a
  cases oldlenp <;> cases old <;> cases new <;>
    simp [SysctlArgs.written, SysctlArgs.size, SysctlArgs.oldlen] <;> omega

/-- A size that wraps covers what is copied only if it counts a new value that is not copied. -/
theorem sysctl_fits_iff {a : SysctlBytes} :
    SysctlArgs.written a.args ≤ (a.buffer extra t).len ↔
      a.args.size < 2 ^ 64 ∨ a.new = none ∧ SysctlArgs.written a.args ≤ (a.buffer extra t).len := by
  have hroom : MSG_BUF_LEN = 10112 := rfl
  obtain ⟨hle, hnew⟩ := sysctl_written_bounds a.args
  have hbuf : (a.buffer extra t).len =
      if MSG_BUF_LEN < a.args.size % 2 ^ 64 then a.args.size % 2 ^ 64 else MSG_BUF_LEN := by
    rw [SysctlBytes.buffer, t.len_eq]
    exact apply_ite Region.len _ _ _
  constructor
  · intro hfits
    by_contra hwrap
    have hset : a.new.isSome = true := by
      rw [Option.isSome_iff_ne_none]
      exact fun hnone => hwrap (.inr ⟨hnone, hfits⟩)
    have hcounted := hnew hset
    rw [hbuf] at hfits
    split at hfits <;> omega
  · rintro (hsize | ⟨-, hfits⟩)
    · rw [hbuf]
      split <;> omega
    · exact hfits

theorem sysctl_right_iff {a : SysctlBytes} (hsent : ToolTransfer.Sent (.sysctl a) inet6 extra t)
    (reply : Exchange.Reply (sysctlExchange a (a.buffer extra t)) before) :
    (sysctlExchange a (a.buffer extra t)).Right before reply ↔
      ToolTransfer.Sound (.sysctl a) extra t reply.result reply.mem := by
  have hapart := sysctl_regions_apart a.args (a.buffer extra t).addr
  have hseen : ∀ w ∈ (sysctlExchange a (a.buffer extra t)).seen,
      readAt ((sysctlExchange a (a.buffer extra t)).sent before) w.addr w.elems.length = w.elems := by
    apply readAt_placeAll
    rw [← sysctl_fill_regions] at hapart
    exact List.pairwise_map.mp hapart
  rw [Exchange.right_iff (fun _ => hseen) fun _ _ => sysctl_returned_iff (sent_sysctl hsent) _ _]
  have hinside := sysctl_regions_inside_iff a.args (a.buffer extra t).addr (a.buffer extra t).len
  constructor
  · rintro ⟨hin, -, hret⟩
    exact ⟨sysctl_fits_iff.mp (hinside.mp hin), hret⟩
  · rintro ⟨hfits, hret⟩
    exact ⟨hinside.mpr (sysctl_fits_iff.mpr hfits), hapart, hret⟩

/-! ## The calls -/

/-- A request that is sent lies in the buffer with its regions apart from each other, shows the server the bytes
of the caller and gives the caller what the server has left, if and only if its sizes do not wrap, the pointers
of `recvfrom` are right for its lengths, and the server answers with no greater length. -/
theorem marshalling_right_iff (r : ToolTransfer) (inet6 : Bool) (extra : Option ℕ) (t : TakenMsg α)
    (before : ℕ → UInt8) (reply : Exchange.Reply (toolExchange r extra t) before) :
    (r.Sent inet6 extra t → (toolExchange r extra t).Right before reply) ↔
      (r.Sent inet6 extra t → ToolTransfer.Sound r extra t reply.result reply.mem) := by
  refine imp_congr_right fun hsent => ?_
  cases r with
  | ngctl a => exact ng_right_iff hsent reply
  | ipfw get optval optlen => exact ipfw_right_iff hsent reply
  | sysctl a => exact sysctl_right_iff hsent reply
  | ioctl a => exact ioctl_right_iff hsent reply

/-- Room for 1024 bytes, and for an address of 16. -/
def recvKilobyte : NgArgs := .recvfrom 3 (fun _ => 0) 1024 0 (fun _ => 0) 16

/-- A message as `ff_msg_init` leaves it, at the address 4096. -/
def freshMsg : TakenMsg Unit where
  msg := ffMsgInit 0 ⟨0, 0, 0, .embedded 0 0, none, 0, ⟨(), 0, 0, ⟨0, 0, 0, 0, 0⟩, ⟨0, 0, 0, 0, 0, 0⟩, 0, 0⟩⟩
  addr := 4096
  len_eq := rfl
  fits := by decide

/-- The address of `recvfrom` is put 16432 bytes behind the start of a buffer of 10112. -/
theorem recvfrom_address_outside :
    ToolTransfer.Sent (.ngctl recvKilobyte) false none freshMsg ∧
      ¬ ∃ (before : ℕ → UInt8)
          (reply : Exchange.Reply (toolExchange (.ngctl recvKilobyte) none freshMsg) before),
        (toolExchange (.ngctl recvKilobyte) none freshMsg).Right before reply := by
  have hsent : ToolTransfer.Sent (.ngctl recvKilobyte) false none freshMsg := ⟨rfl, rfl⟩
  refine ⟨hsent, ?_⟩
  rintro ⟨before, reply, hright⟩
  obtain ⟨⟨hfrom, -⟩, -⟩ := (ng_right_iff hsent reply).mp hright
  revert hfrom
  decide

end FStack.Analysis
