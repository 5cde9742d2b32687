import FStack.Model.SockAddr

/-!
# Socket addresses on their way to the stack

Between the formats of Linux and of FreeBSD only the first two bytes change, so an address that is
translated with its full length comes back as it was (`sockaddr_round_trip`).  The length is not
checked: below 2 the subtraction wraps around, and above 128 the storage is overrun.  `ff_route_ctl`
translates 16 bytes of every address, which leaves the second half of an IPv6 address to whatever the
storage held (`routeAddr_bytes`).
-/

set_option autoImplicit false

namespace FStack.Analysis

open FStack.Model FStack.Prelude

variable {n p q addr sa : ℕ} {mem : Ram}

/-! ## Two buffers -/

/-- Two buffers of `n` bytes are the same one, or have no byte in common. -/
def SameOrApart (p q n : ℕ) : Prop := p = q ∨ p + n ≤ q ∨ q + n ≤ p

theorem sizeSub2_of_le (h : 2 ≤ n) (hlt : n < 2 ^ 64) : sizeSub2 n = n - 2 := by
  rw [sizeSub2]
  omega

/-- **What is translated to FreeBSD**: the first two bytes are the length and the family, the
others are copied, and nothing else is written. -/
theorem linux2freebsdSockaddr_spec (mem : Ram) (hp : p ≠ 0) (hq : q ≠ 0) (hn : 2 ≤ n) (hlt : n < 2 ^ 64)
    (hpq : SameOrApart p q n) :
    readLe (linux2freebsdSockaddr mem p n q).1 q 1 = n % 256 ∧
      readLe (linux2freebsdSockaddr mem p n q).1 (q + 1) 1 =
        (if readLe mem p 2 = LINUX_AF_INET6 then AF_INET6_FREEBSD else readLe mem p 2) % 256 ∧
      readAt (linux2freebsdSockaddr mem p n q).1 (q + 2) (n - 2) = readAt mem (p + 2) (n - 2) ∧
      ∀ i, i < q ∨ q + n ≤ i → (linux2freebsdSockaddr mem p n q).1 i = mem i := by
  generalize hfam : (if readLe mem p 2 = LINUX_AF_INET6 then AF_INET6_FREEBSD else readLe mem p 2) =
    family
  generalize hhead : writeLe (writeLe mem (q + 1) 1 family) q 1 n = head
  have hlen : readLe head q 1 = n % 256 := by
    rw [← hhead, readLe_writeLe_self, pow_one]
  have hbyte : readLe head (q + 1) 1 = family % 256 := by
    rw [← hhead, readLe_writeLe_of_disjoint (Or.inr (Nat.le_refl _)), readLe_writeLe_self, pow_one]
  have hframe : ∀ i, i < q ∨ q + 2 ≤ i → head i = mem i := by
    intro i hi
    rw [← hhead, writeLe_of_outside (by omega), writeLe_of_outside (by omega)]
  have hdata : readAt head (p + 2) (n - 2) = readAt mem (p + 2) (n - 2) := by
    apply readAt_congr
    intro i hlo hhi
    rcases hpq with rfl | hpq
    · exact hframe i (by omega)
    · exact hframe i (by omega)
  by_cases heq : p = q
  · have hrun : (linux2freebsdSockaddr mem p n q).1 = head := by
      rw [linux2freebsdSockaddr, if_neg (by omega)]
      simp only [hfam, hhead]
      rw [if_neg (by omega)]
    rw [hrun]
    refine ⟨hlen, hbyte, heq ▸ hdata, ?_⟩
    intro i hi
    exact hframe i (by omega)
  · have hrun : (linux2freebsdSockaddr mem p n q).1 =
        writeAt head (q + 2) (readAt head (p + 2) (n - 2)) := by
      rw [linux2freebsdSockaddr, if_neg (by omega)]
      simp only [hfam, hhead]
      rw [if_pos (by omega), sizeSub2_of_le hn hlt]
      rfl
    have houtside : ∀ i, i < q + 2 ∨ q + n ≤ i →
        writeAt head (q + 2) (readAt head (p + 2) (n - 2)) i = head i := by
      intro i hi
      apply writeAt_of_outside
      rw [length_readAt]
      omega
    rw [hrun]
    refine ⟨?_, ?_, ?_, ?_⟩
    · rw [← hlen]
      exact readLe_congr fun i hlo hhi => houtside i (by omega)
    · rw [← hbyte]
      exact readLe_congr fun i hlo hhi => houtside i (by omega)
    · have hself := readAt_writeAt_self head (q + 2) (readAt head (p + 2) (n - 2))
      rw [length_readAt] at hself
      rw [hself, hdata]
    · intro i hi
      rw [houtside i (by omega)]
      exact hframe i (by omega)

/-- **What is translated back**, for an address of `n` bytes. -/
theorem freebsd2linuxSockaddr_spec (mem : Ram) {r : ℕ} (hq : q ≠ 0) (hr : r ≠ 0) (hn : 2 ≤ n)
    (hlen : readLe mem q 1 = n) (hqr : SameOrApart q r n) :
    readAt (freebsd2linuxSockaddr mem r q) r 2 =
        leBytes 2 (if readLe mem (q + 1) 1 = AF_INET6_FREEBSD then LINUX_AF_INET6
          else readLe mem (q + 1) 1) ∧
      readAt (freebsd2linuxSockaddr mem r q) (r + 2) (n - 2) = readAt mem (q + 2) (n - 2) := by
  have hbyte : readLe mem q 1 < 256 ^ 1 := readLe_lt mem q 1
  by_cases heq : r = q
  · subst heq
    have hrun : freebsd2linuxSockaddr mem r r = writeLe mem r 2
        (if readLe mem (r + 1) 1 = AF_INET6_FREEBSD then LINUX_AF_INET6
          else readLe mem (r + 1) 1) := by
      rw [freebsd2linuxSockaddr, if_neg (by omega)]
      simp
    rw [hrun]
    exact ⟨readAt_writeLe_self _ _ _ _, readAt_writeLe_of_disjoint (by omega)⟩
  · have hsub : sizeSub2 (readLe mem q 1) = n - 2 := by
      rw [hlen]
      exact sizeSub2_of_le hn (by omega)
    have hcopy : freebsd2linuxSockaddr mem r q =
        writeLe (writeAt mem (r + 2) (readAt mem (q + 2) (n - 2))) r 2
          (if readLe (writeAt mem (r + 2) (readAt mem (q + 2) (n - 2))) (q + 1) 1 = AF_INET6_FREEBSD
            then LINUX_AF_INET6
            else readLe (writeAt mem (r + 2) (readAt mem (q + 2) (n - 2))) (q + 1) 1) := by
      rw [freebsd2linuxSockaddr, if_neg (by omega), if_pos (by omega), hsub]
      rfl
    have hfam : readLe (writeAt mem (r + 2) (readAt mem (q + 2) (n - 2))) (q + 1) 1 =
        readLe mem (q + 1) 1 := by
      apply readLe_congr
      intro i hlo hhi
      apply writeAt_of_outside
      rw [length_readAt]
      rcases hqr with hqr | hqr <;> omega
    rw [hcopy, hfam]
    refine ⟨readAt_writeLe_self _ _ _ _, ?_⟩
    rw [readAt_writeLe_of_disjoint (by omega)]
    have hself := readAt_writeAt_self mem (r + 2) (readAt mem (q + 2) (n - 2))
    rwa [length_readAt] at hself

/-! ## There and back -/

/-- The length of an address of a family: `struct sockaddr_in`, `struct sockaddr_in6`. -/
def addressLength (family : ℕ) : ℕ := if family = LINUX_AF_INET6 then 28 else 16

/-- The address at `p` is an internet address. -/
def InetFamily (mem : Ram) (p : ℕ) : Prop :=
  readLe mem p 2 = LINUX_AF_INET ∨ readLe mem p 2 = LINUX_AF_INET6

instance (mem : Ram) (p : ℕ) : Decidable (InetFamily mem p) :=
  inferInstanceAs (Decidable (_ ∨ _))

/-- **An internet address comes back as it was**, from the storage it was translated into. -/
theorem sockaddr_round_trip {r : ℕ} (hp : p ≠ 0) (hq : q ≠ 0) (hr : r ≠ 0) (hfam : InetFamily mem p)
    (hpq : SameOrApart p q (addressLength (readLe mem p 2)))
    (hqr : SameOrApart q r (addressLength (readLe mem p 2))) :
    readAt (freebsd2linuxSockaddr
        (linux2freebsdSockaddr mem p (addressLength (readLe mem p 2)) q).1 r q) r
        (addressLength (readLe mem p 2)) =
      readAt mem p (addressLength (readLe mem p 2)) := by
  have hn : 2 ≤ addressLength (readLe mem p 2) ∧ addressLength (readLe mem p 2) < 256 := by
    rw [addressLength]
    split
    · omega
    · omega
  generalize hlen : addressLength (readLe mem p 2) = n at hn hpq hqr ⊢
  obtain ⟨hbyte, hfamily, hdata, _⟩ :=
    linux2freebsdSockaddr_spec mem hp hq hn.1 (by omega) hpq
  obtain ⟨hback, hrest⟩ := freebsd2linuxSockaddr_spec
    (linux2freebsdSockaddr mem p n q).1 hq hr hn.1 (by omega) hqr
  have hsplit : ∀ (m : Ram) (a : ℕ), readAt m a n = readAt m a 2 ++ readAt m (a + 2) (n - 2) := by
    intro m a
    rw [← readAt_append, Nat.add_sub_cancel' hn.1]
  -- the family is translated back
  have hhead : readAt mem p 2 = leBytes 2 (readLe mem p 2) := by
    have hbytes := leBytes_ofLeBytes (readAt mem p 2)
    rw [length_readAt] at hbytes
    exact hbytes.symm
  have hsame : (if readLe (linux2freebsdSockaddr mem p n q).1 (q + 1) 1 = AF_INET6_FREEBSD
      then LINUX_AF_INET6 else readLe (linux2freebsdSockaddr mem p n q).1 (q + 1) 1) =
        readLe mem p 2 := by
    rw [hfamily]
    rcases hfam with hfam | hfam
    · rw [hfam]
      decide
    · rw [hfam]
      decide
  rw [hsplit, hsplit mem, hback, hrest, hdata, hsame, hhead]

/-! ## How much is copied -/

/-- INTERNAL: The copy fits into the storage unless the length is unreasonable. -/
theorem copied_le_iff (mem : Ram) (p : ℕ) (addrlen : UInt32) (hq : q ≠ 0) (hpq : p ≠ q) :
    (linux2freebsdSockaddr mem p addrlen.toNat q).2 ≤ SS_MAXSIZE - 2 ↔
      p = 0 ∨ (2 ≤ addrlen.toNat ∧ addrlen.toNat ≤ SS_MAXSIZE) := by
  have hsize : SS_MAXSIZE = 128 := rfl
  have hlt := addrlen.toNat_lt
  by_cases hp : p = 0
  · rw [linux2freebsdSockaddr, if_pos (Or.inl hp)]
    exact iff_of_true (Nat.zero_le _) (Or.inl hp)
  · have hcopied : (linux2freebsdSockaddr mem p addrlen.toNat q).2 = sizeSub2 addrlen.toNat := by
      rw [linux2freebsdSockaddr, if_neg (by omega)]
      dsimp only
      rw [if_pos (by omega)]
    rw [hcopied, or_iff_right hp, sizeSub2]
    omega

/-! ## Routes -/

/-- The bytes of the address itself. -/
def addressBytes (mem : Ram) (p family : ℕ) : List UInt8 :=
  if family = LINUX_AF_INET6 then readAt mem (p + 8) 16 else readAt mem (p + 4) 4

/-- An address that is not given, or one that is apart from a storage. -/
def ApartFromStorage (addr sa : ℕ) : Prop := addr + 28 ≤ sa ∨ sa + SS_MAXSIZE ≤ addr

/-- INTERNAL: Translating one address of a route writes into its storage only. -/
theorem routeAddr_frame (mem : Ram) (hsa : sa ≠ 0) (hapart : addr ≠ 0 → ApartFromStorage addr sa) :
    ∀ i, i < sa ∨ sa + SS_MAXSIZE ≤ i → (routeAddr mem addr sa).1 i = mem i := by
  have hsize : SS_MAXSIZE = 128 := rfl
  have hlen : sizeofLinuxSockaddr = 16 := rfl
  intro i hi
  rw [routeAddr]
  split
  · rename_i haddr
    have hdisjoint := hapart haddr
    rw [ApartFromStorage] at hdisjoint
    have hspec := linux2freebsdSockaddr_spec mem haddr hsa (n := sizeofLinuxSockaddr) (by decide)
      (by decide) (Or.inr (by omega))
    exact hspec.2.2.2 i (by omega)
  · rfl

/-- **16 bytes of an address reach the storage**: enough for an IPv4 address, and for half of an
IPv6 address. -/
theorem routeAddr_bytes (mem : Ram) (haddr : addr ≠ 0) (hsa : sa ≠ 0) (hapart : ApartFromStorage addr sa)
    (family : ℕ) :
    addressBytes (routeAddr mem addr sa).1 sa family = addressBytes mem addr family ↔
      family ≠ LINUX_AF_INET6 ∨ readAt mem (sa + 16) 8 = readAt mem (addr + 16) 8 := by
  have hsize : SS_MAXSIZE = 128 := rfl
  have hlen : sizeofLinuxSockaddr = 16 := rfl
  rw [ApartFromStorage] at hapart
  obtain ⟨_, _, hdata, hframe⟩ := linux2freebsdSockaddr_spec mem haddr hsa
    (n := sizeofLinuxSockaddr) (by decide) (by decide) (Or.inr (by omega))
  rw [routeAddr, if_pos haddr]
  dsimp only
  generalize (linux2freebsdSockaddr mem addr sizeofLinuxSockaddr sa).1 = mem' at hdata hframe
  have hpart : ∀ k n, k + n ≤ 14 → readAt mem' (sa + 2 + k) n = readAt mem (addr + 2 + k) n := by
    intro k n hkn
    have hsplit : sizeofLinuxSockaddr - 2 = k + (n + (14 - k - n)) := by omega
    rw [hsplit, readAt_append, readAt_append, readAt_append mem, readAt_append mem] at hdata
    have htail := (List.append_inj hdata (by simp)).2
    exact (List.append_inj htail (by simp)).1
  have hstale : readAt mem' (sa + 16) 8 = readAt mem (sa + 16) 8 :=
    readAt_congr fun i hlo hhi => hframe i (by omega)
  rw [addressBytes, addressBytes]
  by_cases hfam : family = LINUX_AF_INET6
  · have hhalves : ∀ (m : Ram) (a : ℕ), readAt m a 16 = readAt m a 8 ++ readAt m (a + 8) 8 :=
      fun m a => readAt_append m a 8 8
    have hfirst : readAt mem' (sa + 8) 8 = readAt mem (addr + 8) 8 := hpart 6 8 (by omega)
    rw [if_pos hfam, if_pos hfam, or_iff_right (not_not.mpr hfam), hhalves, hhalves mem, hfirst,
      List.append_cancel_left_eq, ← hstale]
  · rw [if_neg hfam, if_neg hfam]
    exact iff_of_true (hpart 2 4 (by omega)) (Or.inl hfam)

/-- INTERNAL: The bytes of an address depend on the address. -/
theorem addressBytes_congr {mem' : Ram} (h : ∀ i, p ≤ i → i < p + 28 → mem' i = mem i) (family : ℕ) :
    addressBytes mem' p family = addressBytes mem p family := by
  rw [addressBytes, addressBytes]
  split
  · exact readAt_congr fun i hlo hhi => h i (by omega) (by omega)
  · exact readAt_congr fun i hlo hhi => h i (by omega) (by omega)

/-- INTERNAL: One address of a route, when the others are translated before and after it. -/
theorem routeAddr_bytes_between {before after : Ram} (haddr : addr ≠ 0) (hsa : sa ≠ 0)
    (hapart : ApartFromStorage addr sa)
    (hbefore : ∀ i, (addr ≤ i ∧ i < addr + 28) ∨ (sa ≤ i ∧ i < sa + SS_MAXSIZE) → before i = mem i)
    (hafter : ∀ i, sa ≤ i → i < sa + SS_MAXSIZE → after i = (routeAddr before addr sa).1 i) (family : ℕ) :
    addressBytes after sa family = addressBytes mem addr family ↔
      family ≠ LINUX_AF_INET6 ∨ readAt mem (sa + 16) 8 = readAt mem (addr + 16) 8 := by
  have hsize : SS_MAXSIZE = 128 := rfl
  have hstorage : readAt before (sa + 16) 8 = readAt mem (sa + 16) 8 :=
    readAt_congr fun i hlo hhi => hbefore i (by omega)
  have hcaller : readAt before (addr + 16) 8 = readAt mem (addr + 16) 8 :=
    readAt_congr fun i hlo hhi => hbefore i (by omega)
  have hout : addressBytes after sa family = addressBytes (routeAddr before addr sa).1 sa family :=
    addressBytes_congr (fun i hlo hhi => hafter i hlo (by omega)) family
  have hin : addressBytes before addr family = addressBytes mem addr family :=
    addressBytes_congr (fun i hlo hhi => hbefore i (by omega)) family
  rw [hout, ← hin, routeAddr_bytes before haddr hsa hapart, hstorage, hcaller]

/-! ## The uses of the translation -/

/-- How an address is translated: by a call that hands it to the stack, there and back, or for a
route. -/
inductive AddrUse where
  | bind (addr : ℕ) (addrlen : UInt32) (bsdaddr : ℕ)
  | connect (name : ℕ) (namelen : UInt32) (bsdaddr : ℕ)
  | sendto (dest : ℕ) (tolen : UInt32) (bsdaddr : ℕ)
  | roundTrip (linux freebsd back : ℕ)
  | routeCtl (req : FfRouteCtl) (flag : FfRouteFlag) (dst gw netmask sa_gw sa_dst sa_nm : ℕ)

/-- An address that is given to `ff_route_ctl` is an internet address, and apart from the storages on
the stack. -/
def RouteArg (mem : Ram) (addr sa_gw sa_dst sa_nm : ℕ) : Prop :=
  addr ≠ 0 → InetFamily mem addr ∧ ApartFromStorage addr sa_gw ∧ ApartFromStorage addr sa_dst ∧
    ApartFromStorage addr sa_nm

/-- Two storages on the stack have no byte in common. -/
def StoragesApart (sa sb : ℕ) : Prop := sa + SS_MAXSIZE ≤ sb ∨ sb + SS_MAXSIZE ≤ sa

/-- The pointers of a use: locals are at addresses of their own. -/
def AddrUse.Wf (mem : Ram) : AddrUse → Prop
  | .bind addr _ bsdaddr => bsdaddr ≠ 0 ∧ addr ≠ bsdaddr
  | .connect name _ bsdaddr => bsdaddr ≠ 0 ∧ name ≠ bsdaddr
  | .sendto dest _ bsdaddr => bsdaddr ≠ 0 ∧ dest ≠ bsdaddr
  | .roundTrip linux freebsd back =>
    (linux ≠ 0 ∧ freebsd ≠ 0 ∧ back ≠ 0) ∧ InetFamily mem linux ∧
      SameOrApart linux freebsd (addressLength (readLe mem linux 2)) ∧
      SameOrApart freebsd back (addressLength (readLe mem linux 2))
  | .routeCtl _ _ dst gw netmask sa_gw sa_dst sa_nm =>
    (sa_gw ≠ 0 ∧ sa_dst ≠ 0 ∧ sa_nm ≠ 0) ∧
      (StoragesApart sa_gw sa_dst ∧ StoragesApart sa_gw sa_nm ∧ StoragesApart sa_dst sa_nm) ∧
      RouteArg mem gw sa_gw sa_dst sa_nm ∧ RouteArg mem dst sa_gw sa_dst sa_nm ∧
      RouteArg mem netmask sa_gw sa_dst sa_nm

/-- An address reaches `rib_action` with the bytes it has. -/
def RouteAddrRight (mem mem' : Ram) (addr psa : ℕ) : Prop :=
  addr ≠ 0 →
    addressBytes mem' psa (readLe mem addr 2) = addressBytes mem addr (readLe mem addr 2)

/-- What the translation has to do. -/
def AddrUse.Right (mem : Ram) : AddrUse → Prop
  | .bind addr addrlen bsdaddr => (ffBindAddr mem addr addrlen bsdaddr).2 ≤ SS_MAXSIZE - 2
  | .connect name namelen bsdaddr => (ffConnectAddr mem name namelen bsdaddr).2 ≤ SS_MAXSIZE - 2
  | .sendto dest tolen bsdaddr => (ffSendtoAddr mem dest tolen bsdaddr).2 ≤ SS_MAXSIZE - 2
  | .roundTrip linux freebsd back =>
    readAt (freebsd2linuxSockaddr
        (linux2freebsdSockaddr mem linux (addressLength (readLe mem linux 2)) freebsd).1 back freebsd)
        back (addressLength (readLe mem linux 2)) =
      readAt mem linux (addressLength (readLe mem linux 2))
  | .routeCtl req flag dst gw netmask sa_gw sa_dst sa_nm =>
    ∀ mem' rib, ffRouteCtl mem req flag dst gw netmask sa_gw sa_dst sa_nm = some (mem', rib) →
      RouteAddrRight mem mem' gw rib.gateway ∧ RouteAddrRight mem mem' dst rib.dst ∧
        RouteAddrRight mem mem' netmask rib.netmask

/-- A length that `struct sockaddr_storage` has room for. -/
def LengthOk (addr : ℕ) (addrlen : UInt32) : Prop :=
  addr = 0 ∨ (2 ≤ addrlen.toNat ∧ addrlen.toNat ≤ SS_MAXSIZE)

/-- The address is not given, or it is an IPv4 address, or the storage happens to hold the second half
of it. -/
def RouteAddrOk (mem : Ram) (addr sa : ℕ) : Prop :=
  addr ≠ 0 → readLe mem addr 2 ≠ LINUX_AF_INET6 ∨
    readAt mem (sa + 16) 8 = readAt mem (addr + 16) 8

/-- When it does that. -/
def AddrUse.Safe (mem : Ram) : AddrUse → Prop
  | .bind addr addrlen _ => LengthOk addr addrlen
  | .connect name namelen _ => LengthOk name namelen
  | .sendto dest tolen _ => LengthOk dest tolen
  | .roundTrip _ _ _ => True
  | .routeCtl req flag dst gw netmask sa_gw sa_dst sa_nm =>
    req.rtreq = none ∨ flag.rtflag = none ∨
      (RouteAddrOk mem gw sa_gw ∧ RouteAddrOk mem dst sa_dst ∧ RouteAddrOk mem netmask sa_nm)

/-- INTERNAL: An address that is not given is `NULL` for `rib_action` too. -/
theorem routeAddr_snd (mem : Ram) (haddr : addr ≠ 0) (sa : ℕ) :
    (routeAddr mem addr sa).2 = sa := by
  rw [routeAddr, if_pos haddr]

/-- INTERNAL: One address of a route, as `rib_action` finds it. -/
theorem routeAddrRight_iff {before after : Ram} (hsa : sa ≠ 0)
    (hapart : addr ≠ 0 → ApartFromStorage addr sa)
    (hbefore : ∀ i, (addr ≠ 0 ∧ addr ≤ i ∧ i < addr + 28) ∨ (sa ≤ i ∧ i < sa + SS_MAXSIZE) →
      before i = mem i)
    (hafter : ∀ i, sa ≤ i → i < sa + SS_MAXSIZE → after i = (routeAddr before addr sa).1 i) :
    RouteAddrRight mem after addr (routeAddr before addr sa).2 ↔ RouteAddrOk mem addr sa := by
  rw [RouteAddrRight, RouteAddrOk]
  apply forall_congr'
  intro haddr
  rw [routeAddr_snd before haddr]
  exact routeAddr_bytes_between haddr hsa (hapart haddr)
    (fun i hi => hbefore i (hi.imp_left fun h => ⟨haddr, h⟩)) hafter _

/-- **The three addresses of a route.** -/
theorem route_right_iff {req : FfRouteCtl} {flag : FfRouteFlag} {dst gw netmask sa_gw sa_dst sa_nm : ℕ}
    (h : AddrUse.Wf mem (.routeCtl req flag dst gw netmask sa_gw sa_dst sa_nm)) :
    AddrUse.Right mem (.routeCtl req flag dst gw netmask sa_gw sa_dst sa_nm) ↔
      AddrUse.Safe mem (.routeCtl req flag dst gw netmask sa_gw sa_dst sa_nm) := by
  obtain ⟨⟨hgw0, hdst0, hnm0⟩, ⟨hgd, hgn, hdn⟩, hgw, hdst, hnm⟩ := h
  have hsize : SS_MAXSIZE = 128 := rfl
  rw [AddrUse.Right, AddrUse.Safe]
  cases hreq : req.rtreq with
  | none => simp [ffRouteCtl, hreq]
  | some rtreq =>
    cases hflag : flag.rtflag with
    | none => simp [ffRouteCtl, hreq, hflag]
    | some rtflag =>
      generalize hm1 : routeAddr mem gw sa_gw = r1
      generalize hm2 : routeAddr r1.1 dst sa_dst = r2
      generalize hm3 : routeAddr r2.1 netmask sa_nm = r3
      have hrun : ffRouteCtl mem req flag dst gw netmask sa_gw sa_dst sa_nm =
          some (r3.1, ⟨rtreq, rtflag, r1.2, r2.2, r3.2⟩) := by
        simp only [ffRouteCtl, hreq, hflag, hm1, hm2, hm3]
      -- what each translation leaves alone
      have hframe1 := routeAddr_frame mem hgw0 fun h => (hgw h).2.1
      have hframe2 := routeAddr_frame r1.1 hdst0 fun h => (hdst h).2.2.1
      have hframe3 := routeAddr_frame r2.1 hnm0 fun h => (hnm h).2.2.2
      rw [hm1] at hframe1
      rw [hm2] at hframe2
      rw [hm3] at hframe3
      rw [StoragesApart] at hgd hgn hdn
      have hright1 : RouteAddrRight mem r3.1 gw r1.2 ↔ RouteAddrOk mem gw sa_gw := by
        rw [← hm1]
        apply routeAddrRight_iff hgw0 (fun h => (hgw h).2.1) (fun i _ => rfl)
        intro i hlo hhi
        rw [hframe3 i (by omega), hframe2 i (by omega), hm1]
      have hright2 : RouteAddrRight mem r3.1 dst r2.2 ↔ RouteAddrOk mem dst sa_dst := by
        rw [← hm2]
        apply routeAddrRight_iff hdst0 (fun h => (hdst h).2.2.1)
        · intro i hi
          apply hframe1
          rcases hi with ⟨h0, hi⟩ | hi
          · have hapart := (hdst h0).2.1
            rw [ApartFromStorage] at hapart
            omega
          · omega
        · intro i hlo hhi
          rw [hframe3 i (by omega), hm2]
      have hright3 : RouteAddrRight mem r3.1 netmask r3.2 ↔ RouteAddrOk mem netmask sa_nm := by
        rw [← hm3]
        apply routeAddrRight_iff hnm0 (fun h => (hnm h).2.2.2)
        · intro i hi
          have houtside : (i < sa_dst ∨ sa_dst + SS_MAXSIZE ≤ i) ∧
              (i < sa_gw ∨ sa_gw + SS_MAXSIZE ≤ i) := by
            rcases hi with ⟨h0, hi⟩ | hi
            · have hapart := (hnm h0).2
              rw [ApartFromStorage, ApartFromStorage] at hapart
              omega
            · omega
          rw [hframe2 i houtside.1, hframe1 i houtside.2]
        · intro i _ _
          rfl
      rw [hrun]
      constructor
      · intro hall
        obtain ⟨h1, h2, h3⟩ := hall _ _ rfl
        exact Or.inr (Or.inr ⟨hright1.mp h1, hright2.mp h2, hright3.mp h3⟩)
      · rintro (h | h | ⟨h1, h2, h3⟩)
        · exact absurd h (by simp)
        · exact absurd h (by simp)
        · intro mem' rib heq
          obtain ⟨rfl, rfl⟩ := Prod.mk.inj (Option.some.inj heq)
          exact ⟨hright1.mpr h1, hright2.mpr h2, hright3.mpr h3⟩

/-- **When addresses are translated right**, for every use. -/
theorem address_use_right_iff (mem : Ram) (u : AddrUse) (h : u.Wf mem) : u.Right mem ↔ u.Safe mem := by
  cases u with
  | bind addr addrlen bsdaddr => exact copied_le_iff mem addr addrlen h.1 h.2
  | connect name namelen bsdaddr => exact copied_le_iff mem name namelen h.1 h.2
  | sendto dest tolen bsdaddr =>
    rw [AddrUse.Right, AddrUse.Safe, ffSendtoAddr]
    by_cases hdest : dest = 0
    · rw [if_neg (not_not.mpr hdest)]
      exact iff_of_true (Nat.zero_le _) (Or.inl hdest)
    · rw [if_pos hdest]
      exact copied_le_iff mem dest tolen h.1 h.2
  | roundTrip linux freebsd back =>
    obtain ⟨⟨hlinux, hfreebsd, hback⟩, hfam, hto, hfrom⟩ := h
    exact iff_of_true (sockaddr_round_trip hlinux hfreebsd hback hfam hto hfrom) trivial
  | routeCtl req flag dst gw netmask sa_gw sa_dst sa_nm => exact route_right_iff h

/-- A route to an IPv4 host, from addresses in a zeroed memory. -/
theorem address_use_right_ipv4 :
    AddrUse.Right (writeLe (fun _ => 0) 4096 2 LINUX_AF_INET)
      (.routeCtl .add .host 4096 0 0 1024 1280 1536) :=
  (address_use_right_iff _ _ (by
    refine ⟨by decide, by simp [StoragesApart, SS_MAXSIZE], fun h => absurd rfl h, ?_,
      fun h => absurd rfl h⟩
    exact fun _ => ⟨Or.inl (by decide), Or.inr (by decide), Or.inr (by decide), Or.inr (by decide)⟩)).mpr
    (Or.inr (Or.inr ⟨fun h => absurd rfl h, fun _ => Or.inl (by decide), fun h => absurd rfl h⟩))

/-- A `bind` with a length of one byte copies almost as many bytes as there are numbers. -/
theorem not_address_use_right_short : ¬ ∀ (mem : Ram) (u : AddrUse), u.Wf mem → u.Right mem := by
  intro h
  have hcopied : (ffBindAddr (fun _ => 0) 4096 1 1024).2 ≤ SS_MAXSIZE - 2 :=
    h (fun _ => 0) (.bind 4096 1 1024) ⟨by decide, by decide⟩
  rw [ffBindAddr, copied_le_iff _ _ _ (by decide) (by decide)] at hcopied
  exact absurd hcopied (by decide)

end FStack.Analysis
