import FStack.Model.Offload
import Mathlib.Tactic.Common

/-!
# The two copies of the offload code

For a packet with offloads of layer 4 the copy in `ff_dpdk_if_send` sets a flag for the version of the
IP header, and `ff_offload_set` does not, although the comment on segmentation in both asks for it.
Nothing else differs: the one leaves what the other leaves, with the flag of the version added
(`sendOffload_eq`).  So they agree exactly when the flag is there anyway (`offload_paths_agree_iff`).
-/

set_option autoImplicit false

namespace FStack.Analysis

open FStack.Model

/-- Some flags are added. -/
def addFlags (v : BitVec 64) (head : HeadMbuf) : HeadMbuf :=
  { head with ol_flags := head.ol_flags ||| v }

/-- The number of the flag for the version of the IP header. -/
def versionFlag (head : HeadMbuf) : ℕ :=
  if (head.data RTE_ETHER_HDR_LEN).toNat / 16 = 4 then 55 else 56

/-! ## Adding flags before or after -/

theorem offloadVersion_eq (head : HeadMbuf) :
    offloadVersion head = addFlags (1#64 <<< versionFlag head) head := by
  rw [offloadVersion, versionFlag]
  split <;> rfl

theorem or_right_comm (x v w : BitVec 64) : x ||| v ||| w = x ||| w ||| v := by
  rw [BitVec.or_assoc, BitVec.or_comm v w, ← BitVec.or_assoc]

theorem offloadTcpCsum_addFlags (offload : FfTxOffload) (iph_len : ℕ) (v : BitVec 64)
    (head : HeadMbuf) :
    offloadTcpCsum offload iph_len (addFlags v head) =
      addFlags v (offloadTcpCsum offload iph_len head) := by
  rw [offloadTcpCsum, offloadTcpCsum]
  split
  · simp only [addFlags, or_right_comm]
  · rfl

theorem offloadTso_addFlags (offload : FfTxOffload) (iph_len : ℕ) (v : BitVec 64)
    (head : HeadMbuf) :
    offloadTso offload iph_len (addFlags v head) = addFlags v (offloadTso offload iph_len head) := by
  rw [offloadTso, offloadTso]
  split
  · simp only [addFlags, or_right_comm]
  · rfl

theorem offloadUdpCsum_addFlags (offload : FfTxOffload) (iph_len : ℕ) (v : BitVec 64)
    (head : HeadMbuf) :
    offloadUdpCsum offload iph_len (addFlags v head) =
      addFlags v (offloadUdpCsum offload iph_len head) := by
  rw [offloadUdpCsum, offloadUdpCsum]
  split
  · simp only [addFlags, or_right_comm]
  · rfl

@[simp] theorem offloadIpCsum_data (offload : FfTxOffload) (head : HeadMbuf) :
    (offloadIpCsum offload head).data = head.data := by
  rw [offloadIpCsum]
  split <;> rfl

/-- **What the two functions differ in** is the flag of the version. -/
theorem sendOffload_eq (m : TxPktHdr) (head : HeadMbuf) :
    sendOffload true m head = addFlags (1#64 <<< versionFlag head) (ffOffloadSet true m head) := by
  have hversion : versionFlag (offloadIpCsum (ffMbufTxOffload m) head) = versionFlag head := by
    rw [versionFlag, versionFlag, offloadIpCsum_data]
  simp only [sendOffload, ffOffloadSet, if_true, offloadVersion_eq, hversion, offloadTcpCsum_addFlags,
    offloadTso_addFlags, offloadUdpCsum_addFlags]

/-! ## The flags of the version -/

/-- INTERNAL: Adding a flag changes nothing exactly when it is there. -/
theorem addFlags_eq_self_iff {k : ℕ} (hk : k < 64) (head : HeadMbuf) :
    head = addFlags (1#64 <<< k) head ↔ head.ol_flags.getLsbD k = true := by
  constructor
  · intro h
    rw [h, addFlags, BitVec.getLsbD_or]
    simp [hk]
  · intro hbit
    have hflags : head.ol_flags ||| 1#64 <<< k = head.ol_flags := by
      apply BitVec.eq_of_getLsbD_eq
      intro i hi
      by_cases hik : i = k
      · subst hik
        rw [BitVec.getLsbD_or, hbit, Bool.true_or]
      · rw [BitVec.getLsbD_or, BitVec.getLsbD_shiftLeft]
        simp
        omega
    rw [addFlags, hflags]

/-- INTERNAL: A flag that is not added keeps its value. -/
theorem getLsbD_or_of_clear {x v : BitVec 64} {k : ℕ} (h : v.getLsbD k = false) :
    (x ||| v).getLsbD k = x.getLsbD k := by
  rw [BitVec.getLsbD_or, h, Bool.or_false]

/-- INTERNAL: The offloads of layer 4 leave the flags of the version as they are. -/
theorem ffOffloadSet_versionFlag (m : TxPktHdr) (head : HeadMbuf) {k : ℕ} (hk : k = 55 ∨ k = 56) :
    (ffOffloadSet true m head).ol_flags.getLsbD k =
      (offloadIpCsum (ffMbufTxOffload m) head).ol_flags.getLsbD k := by
  have htcp : RTE_MBUF_F_TX_TCP_CKSUM.getLsbD k = false := by
    rcases hk with rfl | rfl <;> decide
  have htso : RTE_MBUF_F_TX_TCP_SEG.getLsbD k = false := by
    rcases hk with rfl | rfl <;> decide
  have hudp : RTE_MBUF_F_TX_UDP_CKSUM.getLsbD k = false := by
    rcases hk with rfl | rfl <;> decide
  simp only [ffOffloadSet, if_true]
  generalize offloadIpCsum (ffMbufTxOffload m) head = h
  generalize offloadIphLen h.data = iph_len
  have hfirst : (offloadTcpCsum (ffMbufTxOffload m) iph_len h).ol_flags.getLsbD k =
      h.ol_flags.getLsbD k := by
    rw [offloadTcpCsum]
    split
    · exact getLsbD_or_of_clear htcp
    · rfl
  have hsecond : (offloadTso (ffMbufTxOffload m) iph_len
      (offloadTcpCsum (ffMbufTxOffload m) iph_len h)).ol_flags.getLsbD k = h.ol_flags.getLsbD k := by
    rw [← hfirst, offloadTso]
    split
    · exact getLsbD_or_of_clear htso
    · rfl
  rw [← hsecond, offloadUdpCsum]
  split
  · exact getLsbD_or_of_clear hudp
  · rfl

/-- INTERNAL: The offload of the IP checksum sets the flag of IPv4. -/
theorem offloadIpCsum_versionFlag (m : TxPktHdr) (head : HeadMbuf) {k : ℕ} (hk : k = 55 ∨ k = 56) :
    (offloadIpCsum (ffMbufTxOffload m) head).ol_flags.getLsbD k = true ↔
      head.ol_flags.getLsbD k = true ∨ (k = 55 ∧ m.csum_flags &&& CSUM_IP ≠ 0) := by
  have hmask : (RTE_MBUF_F_TX_IP_CKSUM ||| RTE_MBUF_F_TX_IPV4).getLsbD k = decide (k = 55) := by
    rcases hk with rfl | rfl <;> decide
  rw [offloadIpCsum]
  by_cases hip : m.csum_flags &&& CSUM_IP = 0
  · rw [if_neg (by simp [ffMbufTxOffload, hip])]
    simp [hip]
  · rw [if_pos (by simpa [ffMbufTxOffload] using hip)]
    show (head.ol_flags ||| _).getLsbD k = true ↔ _
    rw [BitVec.getLsbD_or, hmask, Bool.or_eq_true, decide_eq_true_eq]
    exact or_congr_right (and_iff_left hip).symm

/-- The flag of the version is there without the copy's help: the packet has no offloads of layer 4, or
its flag was set before, or the IP checksum of an IPv4 packet is offloaded too. -/
def VersionKnown (tx_csum_l4 : Bool) (m : TxPktHdr) (head : HeadMbuf) : Prop :=
  tx_csum_l4 = false ∨ head.ol_flags.getLsbD (versionFlag head) = true ∨
    (versionFlag head = 55 ∧ m.csum_flags &&& CSUM_IP ≠ 0)

/-- **The two builds leave the same head** exactly when the flag of the version is there anyway. -/
theorem offload_paths_agree_iff (tx_csum_l4 : Bool) (m : TxPktHdr) (head : HeadMbuf) :
    ffOffloadSet tx_csum_l4 m head = sendOffload tx_csum_l4 m head ↔
      VersionKnown tx_csum_l4 m head := by
  cases tx_csum_l4 with
  | false => simp [ffOffloadSet, sendOffload, VersionKnown]
  | true =>
    have hk : versionFlag head = 55 ∨ versionFlag head = 56 := by
      rw [versionFlag]
      split
      · exact Or.inl rfl
      · exact Or.inr rfl
    rw [sendOffload_eq, addFlags_eq_self_iff (by omega), ffOffloadSet_versionFlag m head hk,
      offloadIpCsum_versionFlag m head hk]
    simp [VersionKnown]

/-- For a TCP packet of IPv4 with its TCP checksum offloaded, in a fresh head, the flags differ. -/
theorem not_offload_paths_agree :
    ¬ ∀ (tx_csum_l4 : Bool) (m : TxPktHdr) (head : HeadMbuf),
      ffOffloadSet tx_csum_l4 m head = sendOffload tx_csum_l4 m head := by
  intro h
  have hflags := congrArg HeadMbuf.ol_flags
    (h true ⟨CSUM_TCP, 0⟩ ⟨0, 0, 0, 0, 0, fun k => if k = RTE_ETHER_HDR_LEN then 0x45 else 0⟩)
  revert hflags
  decide

end FStack.Analysis
