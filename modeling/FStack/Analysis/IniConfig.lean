import FStack.Analysis.IniRoundTrip

/-!
# The configuration in a file

The handler of `ff_load_config` gets from a file the lines that `iniParse` is about.  So what is proved
about the lines of a configuration holds of every file they are written to, in whatever layout.
-/

set_option autoImplicit false

namespace FStack.Analysis

open FStack.Model FStack.Prelude

/-- The sections, names and values that a handler is given. -/
def givenItems : List IniCall → List (List Char × List Char × List Char)
  | .give _ sect name value :: cs => (sect, name, value) :: givenItems cs
  | _ => []

/-- INTERNAL: the lines that can be written are calls of the handler, or nothing. -/
theorem calls_give (lineno : ℕ) (st : IniState) (ts : List IniText) :
    ∀ c ∈ calls lineno st (ts.map IniText.item), ∃ n sect name value, c = .give (n + 1) sect name value := by
  induction ts generalizing lineno st with
  | nil => exact fun c hc => absurd hc List.not_mem_nil
  | cons t ts ih =>
    cases t with
    | blank => exact ih (lineno + 1) st
    | comment indent mark text => exact ih (lineno + 1) st
    | header indent name rest => exact ih (lineno + 1) ⟨strncpy0 name MAX_SECTION, []⟩
    | entry indent name gap sep pad value note =>
      exact List.forall_mem_cons.mpr ⟨⟨lineno, st.sect, name, value, rfl⟩,
        ih (lineno + 1) { st with prev_name := strncpy0 name MAX_NAME }⟩
    | more indent value =>
      exact List.forall_mem_cons.mpr ⟨⟨lineno, st.sect, st.prev_name, value, rfl⟩, ih (lineno + 1) st⟩

/-- The handler of `ff_load_config` makes of the calls what `iniParse` makes of the lines. -/
theorem feed_given (proc_id : ℤ) (meets : ℕ → IniMeets) (cfg : Config) (k : ℕ) {cs : List IniCall}
    (hcs : ∀ c ∈ cs, ∃ n sect name value, c = .give (n + 1) sect name value) :
    let read := feed (countedHandler proc_id meets) cs (cfg, k)
    let parsed := iniParse proc_id cfg ((givenItems cs).mapIdx fun i e => iniLine (meets (k + i)) e.1 e.2.1 e.2.2)
    read.log = parsed.log ∧ read.val.1.1 = parsed.val.1 ∧ (read.val.2 = 0 ↔ parsed.val.2 = true) := by
  induction cs generalizing cfg k with
  | nil => exact ⟨rfl, rfl, by simp [feed, givenItems, iniParse]⟩
  | cons c cs ih =>
    obtain ⟨⟨n, sect, name, value, rfl⟩, hgives⟩ := List.forall_mem_cons.mp hcs
    have hlines : (givenItems (.give (n + 1) sect name value :: cs)).mapIdx
          (fun i e => iniLine (meets (k + i)) e.1 e.2.1 e.2.2) = iniLine (meets k) sect name value ::
        (givenItems cs).mapIdx fun i e => iniLine (meets (k + 1 + i)) e.1 e.2.1 e.2.2 := by
      rw [givenItems, List.mapIdx_cons]
      simp only [Nat.add_zero, Nat.add_assoc, Nat.add_comm 1]
    have hrest := ih (iniParseHandler proc_id cfg (iniLine (meets k) sect name value)).val.1 (k + 1) hgives
    simp only [hlines, feed, iniParse, countedHandler]
    simp only [Logged.val_bind, Logged.log_bind, Logged.val_pure, Logged.log_pure, List.append_nil]
    change _ ∧ _ ∧ _ at hrest
    cases hok : (iniParseHandler proc_id cfg (iniLine (meets k) sect name value)).val.2 with
    | true =>
      simp only [if_true]
      obtain ⟨hlog, hval, herr⟩ := hrest
      exact ⟨congrArg _ hlog, hval, herr⟩
    | false => simp

/-- INTERNAL: `ff_check_config` after two readings that agree. -/
theorem checked_congr (args : ProcArgs) (a : Configuring ((Config × ℕ) × ℕ)) (b : Configuring (Config × Bool))
    (hlog : a.log = b.log) (hval : a.val.1.1 = b.val.1) (herr : a.val.2 = 0 ↔ b.val.2 = true) :
    (a >>= fun r => if r.2 = 0 then
        ffCheckConfig args r.1.1 >>= fun ok => pure (if ok then some r.1.1 else none)
      else pure none) =
    (b >>= fun r => if r.2 = true then
        ffCheckConfig args r.1 >>= fun ok => pure (if ok then some r.1 else none)
      else pure none : Configuring (Option Config)) := by
  simp only [bind, hlog, hval, herr]

/-- A configuration that is written to a file, in any layout, is the one that `ff_load_config` loads: the
same accesses to the tables, and the same configuration, or none.
SOURCE: lib/ff_config.c:1395-1447; lib/ff_ini_parser.c:70-201 -/
theorem ffLoadConfigFile_written (args : ProcArgs) (meets : ℕ → IniMeets) (f : IniFile) :
    ffLoadConfigFile args meets (some f.text) =
      ffLoadConfig args ((givenItems (calls 0 {} f.items)).mapIdx fun k e => iniLine (meets k) e.1 e.2.1 e.2.2) := by
  have hfeed := feed_given args.proc_id meets {} 0 (calls_give 0 {} (f.first.text :: f.rest.map FileLine.text))
  simp only [Nat.zero_add] at hfeed
  obtain ⟨hlog, hval, herr⟩ := hfeed
  rw [ffLoadConfigFile, iniParseStream_eq_feed, calls_fileItems_text, ffLoadConfig]
  exact checked_congr args _ _ hlog hval herr

end FStack.Analysis
