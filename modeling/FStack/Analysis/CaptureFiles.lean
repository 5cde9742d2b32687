import FStack.Prelude.Rotation
import FStack.Prelude.Monitored
import FStack.Model.PcapDump

/-!
# What the capture files hold

A capture file has to be the header with the configured snap length, followed by a record for each packet, and it has to
be closed as soon as its length reaches the configured one: `captureFiles` is the files that a run has to leave behind.

`ff_dump_packets` cuts a packet with a variable in which it was given the configured snap length, and opens the next file
with what that variable holds then.  The length of a file is counted in 32 bits.  The files are the right ones if and
only if no packet that fills a file is shorter than the snap length, and no file gets as long as 2^32 bytes
(`capture_files_iff`).
-/

set_option autoImplicit false

namespace FStack.Analysis

open FStack.Model FStack.Prelude

variable {fp : List UInt8} {pkts : List PcapPkt}

/-! ## The files as they have to be -/

/-- The number of bytes of a packet that are captured. -/
def caplen (conf : PcapConf) (pkt : PcapPkt) : ℕ := min pkt.pkt_len conf.snap_len

/-- The record of a packet. -/
def pcapRecord (conf : PcapConf) (pkt : PcapPkt) : List UInt8 :=
  pcapPkthdr pkt.sec pkt.usec_or_nsec (caplen conf pkt) pkt.pkt_len ++ pkt.segs.flatten.take (caplen conf pkt)

/-- The file that holds these packets. -/
def pcapFile (conf : PcapConf) (pkts : List PcapPkt) : List UInt8 :=
  pcapFileHeader conf.snap_len conf.timestamp_precision ++ pkts.flatMap (pcapRecord conf)

/-- The length of the file reaches the configured one. -/
def FileFull (conf : PcapConf) (pkts : List PcapPkt) : Prop := conf.save_len ≤ (pcapFile conf pkts).length

instance (conf : PcapConf) : DecidablePred (FileFull conf) := fun _ => inferInstanceAs (Decidable (_ ≤ _))

/-- The files of a run: one is closed, and the next one opened, when its length reaches the configured one. -/
def captureFiles (conf : PcapConf) (pkts : List PcapPkt) : List (List UInt8) :=
  (rotated (FileFull conf) [] pkts).map (pcapFile conf)

/-- A packet that fills the file is not shorter than the snap length, and the length of the file stays below 2^32. -/
def CaptureSafe (conf : PcapConf) (s : PcapState) (pkt : PcapPkt) : Prop :=
  s.g_flen + 16 + caplen conf pkt < 2 ^ 32 ∧
    (conf.save_len ≤ s.g_flen + 16 + caplen conf pkt → conf.snap_len ≤ pkt.pkt_len)

/-! ## Headers and records -/

@[simp] theorem length_pcapFileHeader (snap_len timestamp_precision : ℕ) :
    (pcapFileHeader snap_len timestamp_precision).length = 24 := by
  simp [pcapFileHeader]

@[simp] theorem length_pcapPkthdr (sec usec_or_nsec caplen len : ℕ) :
    (pcapPkthdr sec usec_or_nsec caplen len).length = 16 := by
  simp [pcapPkthdr]

/-- The header of a file says which snap length it was opened with. -/
theorem pcapFileHeader_snaplen {a b timestamp_precision : ℕ} (ha : a < 2 ^ 16) (hb : b < 2 ^ 16)
    (h : pcapFileHeader a timestamp_precision = pcapFileHeader b timestamp_precision) : a = b := by
  have hsnap : leBytes 4 a = leBytes 4 b :=
    List.append_cancel_left (List.append_inj_left' h rfl)
  have hvalue := congrArg ofLeBytes hsnap
  rw [ofLeBytes_leBytes, ofLeBytes_leBytes] at hvalue
  omega

/-- The length of a packet is the number of its bytes. -/
theorem length_flatten_segs (pkt : PcapPkt) : pkt.segs.flatten.length = pkt.pkt_len := by
  rw [List.length_flatten, pkt.pkt_len_eq]

theorem caplen_le (conf : PcapConf) (pkt : PcapPkt) : caplen conf pkt ≤ pkt.pkt_len := Nat.min_le_left _ _

/-- No record holds more of its packet than the header of the file says. -/
theorem caplen_le_snap (conf : PcapConf) (pkt : PcapPkt) : caplen conf pkt ≤ conf.snap_len := Nat.min_le_right _ _

theorem length_pcapRecord (conf : PcapConf) (pkt : PcapPkt) :
    (pcapRecord conf pkt).length = 16 + caplen conf pkt := by
  have hle := caplen_le conf pkt
  rw [pcapRecord, List.length_append, length_pcapPkthdr, List.length_take, length_flatten_segs, Nat.min_eq_left hle]

theorem pcapRecord_ne_nil (conf : PcapConf) (pkt : PcapPkt) : pcapRecord conf pkt ≠ [] := by
  apply List.ne_nil_of_length_pos
  rw [length_pcapRecord]
  omega

theorem pcapFile_append (conf : PcapConf) (cur : List PcapPkt) (pkt : PcapPkt) :
    pcapFile conf (cur ++ [pkt]) = pcapFile conf cur ++ pcapRecord conf pkt := by
  simp [pcapFile]

theorem length_pcapFile (conf : PcapConf) (pkts : List PcapPkt) :
    (pcapFile conf pkts).length = 24 + (pkts.map fun pkt => 16 + caplen conf pkt).sum := by
  simp [pcapFile, length_pcapRecord]

theorem length_pcapFile_append (conf : PcapConf) (cur : List PcapPkt) (pkt : PcapPkt) :
    (pcapFile conf (cur ++ [pkt])).length = (pcapFile conf cur).length + 16 + caplen conf pkt := by
  rw [pcapFile_append, List.length_append, length_pcapRecord, Nat.add_assoc]

/-! ## Writing a packet -/

/-- The segments are written up to the snap length.  The remainder `snap_len - out_len` does not wrap, since no more than
the remainder is written of a segment. -/
theorem writeSegs_eq {snap_len out_len : ℕ} (hout : out_len ≤ snap_len) (hsnap : snap_len < 2 ^ 16)
    (segs : List (List UInt8)) : writeSegs snap_len out_len segs =
      (segs.flatten.take (snap_len - out_len), out_len + min (snap_len - out_len) segs.flatten.length) := by
  induction segs generalizing out_len with
  | nil => simp [writeSegs]
  | cons data next ih =>
    have hwr : (snap_len + (2 ^ 32 - out_len)) % 2 ^ 32 = snap_len - out_len := by omega
    rw [writeSegs, hwr]
    by_cases hshort : data.length < snap_len - out_len
    · have hnext : (out_len + data.length) % 2 ^ 32 = out_len + data.length := by omega
      rw [if_pos hshort, hnext, ih (by omega), List.flatten_cons, List.take_append, List.take_length,
        List.take_of_length_le (Nat.le_of_lt hshort), List.length_append, Nat.sub_sub]
      refine congrArg (Prod.mk _) ?_
      dsimp only
      omega
    · have hnext : (out_len + (snap_len - out_len)) % 2 ^ 32 = snap_len := by omega
      rw [if_neg hshort, hnext, ih (Nat.le_refl _), List.flatten_cons, List.take_append, List.length_append]
      have hrest : snap_len - out_len - data.length = 0 := by omega
      rw [hrest, Nat.sub_self]
      refine congrArg (Prod.mk _) ?_
      dsimp only
      omega

/-- What is written of a packet: its first `caplen` bytes. -/
theorem writeSegs_caplen (conf : PcapConf) (pkt : PcapPkt) : writeSegs (caplen conf pkt) 0 pkt.segs =
    (pkt.segs.flatten.take (caplen conf pkt), caplen conf pkt) := by
  have hsnap : caplen conf pkt < 2 ^ 16 := Nat.lt_of_le_of_lt (caplen_le_snap conf pkt) conf.snap_lt
  rw [writeSegs_eq (Nat.zero_le _) hsnap, Nat.sub_zero, length_flatten_segs, Nat.min_eq_left (caplen_le conf pkt),
    Nat.zero_add]

/-- The count of the file's length after a packet. -/
def flenAfter (conf : PcapConf) (s : PcapState) (pkt : PcapPkt) : ℕ :=
  ((s.g_flen + 16) % 2 ^ 32 + caplen conf pkt) % 2 ^ 32

/-- The number of the file after the present one. -/
def seqAfter (s : PcapState) : ℕ := if s.seq + 1 ≥ PCAP_FILE_NUM then 0 else s.seq + 1

/-- A packet is appended to the open file; when the count has reached the configured length, the file is closed, and the
next one has the length of what was captured in its header. -/
theorem pcapStep_eq (conf : PcapConf) {s : PcapState} (hfp : s.g_pcap_fp = some fp) (pkt : PcapPkt) :
    pcapStep conf s pkt =
      if conf.save_len ≤ flenAfter conf s pkt then
        ffEnablePcap (caplen conf pkt) conf.timestamp_precision
          { s with closed := s.closed ++ [fp ++ pcapRecord conf pkt], seq := seqAfter s }
      else { s with g_pcap_fp := some (fp ++ pcapRecord conf pkt), g_flen := flenAfter conf s pkt } := by
  have hsnap : (if pkt.pkt_len < conf.snap_len then pkt.pkt_len else conf.snap_len) = caplen conf pkt := by
    rw [caplen]
    split <;> omega
  simp only [pcapStep, ffDumpPackets, hfp, hsnap, writeSegs_caplen, pcapRecord, flenAfter, seqAfter, List.append_assoc,
    apply_ite Prod.fst]

/-! ## Files that are not what they have to be stay so -/

/-- What was closed stays, and the open file is only appended to. -/
theorem files_foldl (conf : PcapConf) {s : PcapState} (hfp : s.g_pcap_fp = some fp) (pkts : List PcapPkt) :
    ∃ more rest, (pkts.foldl (pcapStep conf) s).files = s.closed ++ (fp ++ more) :: rest := by
  induction pkts generalizing s fp with
  | nil => exact ⟨[], [], by simp [PcapState.files, hfp]⟩
  | cons pkt pkts ih =>
    have hstep := pcapStep_eq conf hfp pkt
    rw [List.foldl_cons]
    split at hstep
    · obtain ⟨more, rest, hfiles⟩ := ih (s := pcapStep conf s pkt) (congrArg PcapState.g_pcap_fp hstep)
      refine ⟨pcapRecord conf pkt, (pcapFileHeader (caplen conf pkt) conf.timestamp_precision ++ more) :: rest, ?_⟩
      rw [hfiles, hstep, ffEnablePcap, List.append_assoc, List.singleton_append]
    · obtain ⟨more, rest, hfiles⟩ := ih (s := pcapStep conf s pkt) (congrArg PcapState.g_pcap_fp hstep)
      refine ⟨pcapRecord conf pkt ++ more, rest, hfiles.trans ?_⟩
      rw [hstep, List.append_assoc]

/-- The open file is not the one before another as it is now: the next packet is still appended to it. -/
theorem files_ne_of_open (conf : PcapConf) {s : PcapState} (hfp : s.g_pcap_fp = some fp) (pkts : List PcapPkt)
    {after : List (List UInt8)} (hafter : after ≠ []) :
    (pkts.foldl (pcapStep conf) s).files ≠ s.closed ++ fp :: after := by
  have hgrown : ∀ {more : List UInt8} {rest : List (List UInt8)}, more ≠ [] →
      s.closed ++ (fp ++ more) :: rest ≠ s.closed ++ fp :: after := by
    intro more rest hmore h
    have hfile := (List.cons.inj (List.append_cancel_left h)).1
    exact hmore (List.append_right_eq_self.mp hfile)
  cases pkts with
  | nil =>
    intro h
    rw [List.foldl_nil, PcapState.files, hfp] at h
    exact hafter (List.cons.inj (List.append_cancel_left h)).2.symm
  | cons pkt pkts =>
    have hstep := pcapStep_eq conf hfp pkt
    rw [List.foldl_cons]
    split at hstep
    · obtain ⟨more, rest, hfiles⟩ := files_foldl conf (congrArg PcapState.g_pcap_fp hstep) pkts
      rw [hfiles, hstep, ffEnablePcap, List.append_assoc, List.singleton_append]
      exact hgrown (pcapRecord_ne_nil conf pkt)
    · obtain ⟨more, rest, hfiles⟩ := files_foldl conf (congrArg PcapState.g_pcap_fp hstep) pkts
      rw [hfiles, hstep, List.append_assoc]
      exact hgrown (List.append_ne_nil_of_left_ne_nil (pcapRecord_ne_nil conf pkt) more)

/-! ## Runs -/

/-- The open file holds these packets, is not full, and its length was counted. -/
structure Capturing (conf : PcapConf) (cur : List PcapPkt) (s : PcapState) : Prop where
  fp : s.g_pcap_fp = some (pcapFile conf cur)
  flen : s.g_flen = (pcapFile conf cur).length
  open' : cur = [] ∨ ¬ FileFull conf cur

theorem Capturing.enabled (conf : PcapConf) (s : PcapState) :
    Capturing conf [] (ffEnablePcap conf.snap_len conf.timestamp_precision s) where
  fp := by simp [ffEnablePcap, pcapFile]
  flen := by simp [ffEnablePcap, pcapFile]
  open' := .inl rfl

section Step

variable {conf : PcapConf} {cur : List PcapPkt} {s : PcapState} {pkt : PcapPkt}

/-- The file is full with a packet if its length with the packet's record reaches the configured one. -/
theorem Capturing.full_iff (h : Capturing conf cur s) :
    FileFull conf (cur ++ [pkt]) ↔ conf.save_len ≤ s.g_flen + 16 + caplen conf pkt := by
  rw [FileFull, length_pcapFile_append, h.flen]

/-- While the file's length stays below 2^32, the file is rotated exactly when it is full. -/
theorem Capturing.step_of_full (h : Capturing conf cur s) (hfull : FileFull conf (cur ++ [pkt]))
    (hlt : s.g_flen + 16 + caplen conf pkt < 2 ^ 32) :
    pcapStep conf s pkt = ffEnablePcap (caplen conf pkt) conf.timestamp_precision
      { s with closed := s.closed ++ [pcapFile conf (cur ++ [pkt])], seq := seqAfter s } := by
  have hcount : conf.save_len ≤ flenAfter conf s pkt := by
    rw [h.full_iff] at hfull
    rw [flenAfter]
    omega
  rw [pcapStep_eq conf h.fp, if_pos hcount, ← pcapFile_append]

theorem Capturing.step_of_not_full (h : Capturing conf cur s) (hfull : ¬ FileFull conf (cur ++ [pkt])) :
    Capturing conf (cur ++ [pkt]) (pcapStep conf s pkt) ∧ (pcapStep conf s pkt).closed = s.closed := by
  have hsave := conf.save_lt
  have hlength := hfull
  rw [h.full_iff] at hlength
  have hcount : flenAfter conf s pkt = s.g_flen + 16 + caplen conf pkt := by
    rw [flenAfter]
    omega
  have hstep : pcapStep conf s pkt =
      { s with g_pcap_fp := some (pcapFile conf (cur ++ [pkt])), g_flen := flenAfter conf s pkt } := by
    rw [pcapStep_eq conf h.fp, if_neg (by omega), ← pcapFile_append]
  rw [hstep]
  exact ⟨⟨rfl, by rw [length_pcapFile_append, hcount, h.flen], .inr hfull⟩, rfl⟩

/-- Packets that do not fill the file are all in it. -/
theorem Capturing.foldl (h : Capturing conf cur s) (pkts : List PcapPkt) (hopen : ¬ FileFull conf (cur ++ pkts)) :
    Capturing conf (cur ++ pkts) (pkts.foldl (pcapStep conf) s) := by
  induction pkts generalizing cur s with
  | nil => rwa [List.append_nil]
  | cons pkt pkts ih =>
    rw [← List.singleton_append, ← List.append_assoc] at hopen ⊢
    refine ih (h.step_of_not_full fun hfull => hopen (Nat.le_trans hfull ?_)).1 hopen
    simp only [length_pcapFile, List.map_append, List.sum_append]
    omega

/-- A file whose length reaches 2^32 is not rotated: the count starts anew. -/
theorem Capturing.step_of_wrap (h : Capturing conf cur s) (hlt : ¬ s.g_flen + 16 + caplen conf pkt < 2 ^ 32) :
    pcapStep conf s pkt =
      { s with g_pcap_fp := some (pcapFile conf (cur ++ [pkt])), g_flen := flenAfter conf s pkt } := by
  have hsnap := conf.snap_lt
  have hcap := caplen_le_snap conf pkt
  have hcount : ¬ conf.save_len ≤ flenAfter conf s pkt := by
    rw [flenAfter]
    rcases h.open' with rfl | hopen
    · have hlength : s.g_flen = 24 := by simp [h.flen, pcapFile]
      omega
    · rw [FileFull, ← h.flen] at hopen
      omega
  rw [pcapStep_eq conf h.fp, if_neg hcount, ← pcapFile_append]

end Step

/-- From an open file on, the files are the right ones exactly when every packet is safe. -/
theorem files_iff (conf : PcapConf) {cur : List PcapPkt} {s : PcapState} (h : Capturing conf cur s)
    (pkts : List PcapPkt) :
    (pkts.foldl (pcapStep conf) s).files = s.closed ++ (rotated (FileFull conf) cur pkts).map (pcapFile conf) ↔
      AllSteps (pcapStep conf) (CaptureSafe conf) s pkts := by
  induction pkts generalizing cur s with
  | nil => simp [PcapState.files, h.fp]
  | cons pkt pkts ih =>
    rw [List.foldl_cons, allSteps_cons]
    have hnext : (rotated (FileFull conf) [] pkts).map (pcapFile conf) ≠ [] := by
      simpa using rotated_ne_nil (FileFull conf) [] pkts
    by_cases hfull : FileFull conf (cur ++ [pkt])
    · rw [rotated_of_full (FileFull conf) hfull, List.map_cons]
      by_cases hlt : s.g_flen + 16 + caplen conf pkt < 2 ^ 32
      · have hstep := h.step_of_full hfull hlt
        by_cases hshort : conf.snap_len ≤ pkt.pkt_len
        · -- the whole snap length was captured, so that the next header is right
          have hcap : caplen conf pkt = conf.snap_len := Nat.min_eq_right hshort
          rw [hcap] at hstep
          have hstart := ih (hstep ▸ Capturing.enabled conf _)
          rw [and_iff_right ⟨hlt, fun _ => hshort⟩, ← hstart, hstep, ffEnablePcap, List.append_assoc,
            List.singleton_append]
        · refine iff_of_false ?_ fun hsafe => hshort (hsafe.1.2 (h.full_iff.mp hfull))
          obtain ⟨more, rest, hfiles⟩ := files_foldl conf (congrArg PcapState.g_pcap_fp hstep) pkts
          intro heq
          obtain ⟨opened, after, hrotated⟩ := List.exists_cons_of_ne_nil (rotated_ne_nil (FileFull conf) [] pkts)
          rw [hfiles, hstep, hrotated, ffEnablePcap, List.append_assoc, List.singleton_append, List.map_cons] at heq
          have hfile := (List.cons.inj (List.cons.inj (List.append_cancel_left heq)).2).1
          have hheader := List.append_inj_left hfile (by rw [length_pcapFileHeader, length_pcapFileHeader])
          have hcap := pcapFileHeader_snaplen (Nat.lt_of_le_of_lt (caplen_le_snap conf pkt) conf.snap_lt) conf.snap_lt
            hheader
          have hle := caplen_le conf pkt
          omega
      · have hstep := h.step_of_wrap hlt
        refine iff_of_false ?_ fun hsafe => hlt hsafe.1.1
        have hopen := files_ne_of_open conf (congrArg PcapState.g_pcap_fp hstep) pkts hnext
        rwa [hstep] at hopen ⊢
    · rw [rotated_of_not_full (FileFull conf) hfull]
      obtain ⟨hcapturing, hclosed⟩ := h.step_of_not_full hfull
      have hsafe : CaptureSafe conf s pkt := by
        have hsave := conf.save_lt
        rw [h.full_iff] at hfull
        exact ⟨by omega, fun hle => absurd hle hfull⟩
      rw [and_iff_right hsafe, ← ih hcapturing, hclosed]

/-- The files of a run that starts with `ff_enable_pcap` are the ones they have to be if and only if every packet is
safe when it is dumped. -/
theorem capture_files_iff (conf : PcapConf) (pkts : List PcapPkt) :
    (pcapRun conf pkts).files = captureFiles conf pkts ↔
      AllSteps (pcapStep conf) (CaptureSafe conf)
        (ffEnablePcap conf.snap_len conf.timestamp_precision PcapState.init) pkts := by
  rw [← files_iff conf (Capturing.enabled conf PcapState.init) pkts]
  rfl

/-- A packet that fills the file and is shorter than the snap length makes the next file a wrong one. -/
theorem files_ne_of_short (conf : PcapConf) {pkt : PcapPkt} (hopen : ¬ FileFull conf pkts)
    (hfull : conf.save_len ≤ (pcapFile conf pkts).length + 16 + caplen conf pkt) (hshort : pkt.pkt_len < conf.snap_len)
    :
    (pcapRun conf (pkts ++ [pkt])).files ≠ captureFiles conf (pkts ++ [pkt]) := by
  intro h
  have hcapturing := (Capturing.enabled conf PcapState.init).foldl pkts hopen
  have hsafe := (files_iff conf (Capturing.enabled conf PcapState.init) (pkts ++ [pkt])).mp h
  have hlast := ((allSteps_append _ _ _).mp hsafe).2.1.2
  rw [hcapturing.flen, List.nil_append] at hlast
  exact absurd (hlast hfull) (Nat.not_le.mpr hshort)

/-- With a snap length of 96 and files of 8 MiB, the file that is opened after 74898 packets of 96 bytes and one of 60
says 60. -/
theorem next_header_cut : ¬ ∀ (conf : PcapConf) (pkts : List PcapPkt),
    (pcapRun conf pkts).files = captureFiles conf pkts := by
  intro h
  let conf : PcapConf := ⟨96, 8388608, 0, by decide, by decide⟩
  let longPkt : PcapPkt := ⟨0, 0, 96, [List.replicate 96 0], by decide, by decide⟩
  let shortPkt : PcapPkt := ⟨0, 0, 60, [List.replicate 60 0], by decide, by decide⟩
  have hlength : (pcapFile conf (List.replicate 74898 longPkt)).length = 8388600 := by
    have hcap : caplen conf longPkt = 96 := rfl
    rw [length_pcapFile, List.map_replicate, List.sum_replicate_nat, hcap]
  have hopen : ¬ FileFull conf (List.replicate 74898 longPkt) := by
    rw [FileFull, hlength]
    exact Nat.not_le.mpr (by decide : 8388600 < 8388608)
  have hfull : conf.save_len ≤ (pcapFile conf (List.replicate 74898 longPkt)).length + 16 + caplen conf shortPkt := by
    rw [hlength]
    exact (by decide : 8388608 ≤ 8388600 + 16 + caplen conf shortPkt)
  exact files_ne_of_short conf hopen hfull (by decide : shortPkt.pkt_len < conf.snap_len) (h conf _)

/-- The packets are divided over the files in order.  A file before another one is full, and none was full before its
last packet came. -/
theorem captureFiles_division (conf : PcapConf) (pkts : List PcapPkt) :
    ∃ division, division.flatten = pkts ∧ captureFiles conf pkts = division.map (pcapFile conf) ∧
      (∀ before file after, division = before ++ file :: after → after ≠ [] → FileFull conf file) ∧
      ∀ before file pkt after, division = before ++ (file ++ [pkt]) :: after → file = [] ∨ ¬ FileFull conf file := by
  refine ⟨rotated (FileFull conf) [] pkts, flatten_rotated (FileFull conf) [] pkts, rfl, ?_, ?_⟩
  · intro before file after hdivision hafter
    exact full_of_rotated (FileFull conf) hafter hdivision
  · intro before file pkt after hdivision
    rcases not_full_of_rotated (FileFull conf) (.inl rfl) hdivision with hfile | hfile | hfile
    · exact .inl hfile
    · exact .inr hfile
    · exact absurd hfile.symm (List.append_ne_nil_of_right_ne_nil file (List.cons_ne_nil pkt []))

/-! ## Reading the files back -/

end FStack.Analysis
