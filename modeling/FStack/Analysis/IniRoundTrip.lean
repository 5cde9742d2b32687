import FStack.Analysis.IniLines

/-!
# Writing and reading a configuration file

A file is a list of lines by their parts (`IniFile`).  Whatever blanks, comments, line ends and further
lines it has, `ini_parse` hands over the sections, names and values that were written, in order.  In the
other direction, a file that is read without an error can be written again from what was read, and is read
the same.
-/

set_option autoImplicit false

namespace FStack.Analysis

open FStack.Model

/-! ## Files -/

/-- The file with these lines. -/
def fileText : List (List Char) → List Char
  | [] => []
  | [line] => line
  | line :: lines => line ++ '\n' :: fileText lines

/-- The lines of a file as `fgets` gives them: an empty line is not read at the end of the file. -/
def lineTexts : List (List Char) → List (List Char)
  | [] => []
  | [line] => if line = [] then [] else [line]
  | line :: lines => (line ++ ['\n']) :: lineTexts lines

/-- A line that fits into the array of `ini_parse_stream`, with its end. -/
structure ReadableLine (line : List Char) : Prop where
  inLine : InLine line
  short : line.length + 2 ≤ INI_MAX_LINE

theorem fgets_line {num : ℕ} {line : List Char} (rest : List Char) (hline : InLine line)
    (hnum : line.length < num) : fgets num (line ++ '\n' :: rest) = (line ++ ['\n'], rest) := by
  induction line generalizing num with
  | nil =>
    obtain ⟨num, rfl⟩ : ∃ n, num = n + 1 := ⟨num - 1, by simp at hnum; omega⟩
    rfl
  | cons c line ih =>
    obtain ⟨num, rfl⟩ : ∃ n, num = n + 1 := ⟨num - 1, by simp at hnum; omega⟩
    have hc : c ≠ '\n' := (hline c List.mem_cons_self).1
    have hrest : fgets num (line ++ '\n' :: rest) = (line ++ ['\n'], rest) :=
      ih (fun d hd => hline d (List.mem_cons_of_mem _ hd)) (by simpa using hnum)
    rw [List.cons_append, fgets, if_neg hc, hrest]
    rfl

theorem fgets_last {num : ℕ} {line : List Char} (hline : InLine line) (hnum : line.length ≤ num) :
    fgets num line = (line, []) := by
  induction line generalizing num with
  | nil => cases num <;> rfl
  | cons c line ih =>
    obtain ⟨num, rfl⟩ : ∃ n, num = n + 1 := ⟨num - 1, by simp at hnum; omega⟩
    have hc : c ≠ '\n' := (hline c List.mem_cons_self).1
    have hrest : fgets num line = (line, []) :=
      ih (fun d hd => hline d (List.mem_cons_of_mem _ hd)) (by simpa using hnum)
    rw [fgets, if_neg hc, hrest]

theorem takeWhile_inLine {line : List Char} (e : List Char) (he : ∀ c ∈ e, c.toNat ≠ 0) (hline : InLine line) :
    (line ++ e).takeWhile (fun c => decide (c.toNat ≠ 0)) = line ++ e := by
  refine List.takeWhile_eq_self_iff.mpr fun c hc => decide_eq_true ?_
  rcases List.mem_append.mp hc with hc | hc
  · exact (hline c hc).2
  · exact he c hc

theorem inLine_bom : InLine bom := by
  rw [InLine, bom, List.forall_mem_cons, List.forall_mem_cons, List.forall_mem_singleton]
  decide

theorem newline_no_zero : ∀ c ∈ ['\n'], c.toNat ≠ 0 := by
  intro c hc
  rw [List.mem_singleton.mp hc]
  decide

/-- One turn of the loop, on a line that is not the last. -/
theorem readLines_line {turns : ℕ} {line : List Char} (rest : List Char) (hline : ReadableLine line) :
    readLines (turns + 1) (line ++ '\n' :: rest) = (line ++ ['\n']) :: readLines turns rest := by
  have hlen : line.length < INI_MAX_LINE - 1 := by
    have hshort := hline.short
    omega
  have hget := fgets_line rest hline.inLine hlen
  have hcut := takeWhile_inLine ['\n'] newline_no_zero hline.inLine
  cases hs : line ++ '\n' :: rest with
  | nil => simp at hs
  | cons c s =>
    rw [readLines, ← hs, hget, hcut]

theorem readLines_last {turns : ℕ} {line : List Char} (hne : line ≠ []) (hline : ReadableLine line) :
    readLines (turns + 1) line = [line] := by
  have hlen : line.length ≤ INI_MAX_LINE - 1 := by
    have hshort := hline.short
    omega
  have hget := fgets_last hline.inLine hlen
  have hcut := takeWhile_inLine [] (by simp) hline.inLine
  rw [List.append_nil] at hcut
  cases line with
  | nil => exact absurd rfl hne
  | cons c s =>
    rw [readLines, hget, hcut]
    cases turns <;> rfl

theorem readLines_fileText {turns : ℕ} {lines : List (List Char)} (hlines : ∀ line ∈ lines, ReadableLine line)
    (hturns : (fileText lines).length ≤ turns) : readLines turns (fileText lines) = lineTexts lines := by
  induction lines generalizing turns with
  | nil => cases turns <;> rfl
  | cons line lines ih =>
    have hline := hlines line List.mem_cons_self
    have hrest : ∀ l ∈ lines, ReadableLine l := fun l hl => hlines l (List.mem_cons_of_mem _ hl)
    cases lines with
    | nil =>
      rw [fileText] at hturns ⊢
      rw [lineTexts]
      split
      · rename_i hnil
        subst hnil
        cases turns <;> rfl
      · rename_i hne
        have := List.length_pos_of_ne_nil hne
        obtain ⟨turns, rfl⟩ : ∃ n, turns = n + 1 := ⟨turns - 1, by omega⟩
        exact readLines_last hne hline
    | cons next lines =>
      have htext : fileText (line :: next :: lines) = line ++ '\n' :: fileText (next :: lines) := rfl
      rw [htext] at hturns ⊢
      rw [List.length_append, List.length_cons] at hturns
      obtain ⟨turns, rfl⟩ : ∃ n, turns = n + 1 := ⟨turns - 1, by omega⟩
      rw [readLines_line _ hline, ih hrest (by omega)]
      rfl

/-! ## What is handed over -/

/-- `prev_name` behind a line. -/
def nextName (prev_name : List Char) : IniItem → List Char
  | .header _ => []
  | .pair name _ => strncpy0 name MAX_NAME
  | .nothing | .more _ | .malformed => prev_name

def readItems : ℕ → List Char → List (List Char) → List IniItem
  | _, _, [] => []
  | lineno, prev_name, line :: lines =>
    readItem (lineno + 1) prev_name line ::
      readItems (lineno + 1) (nextName prev_name (readItem (lineno + 1) prev_name line)) lines

/-- What the lines of a file come to: calls of the handler, with the number of the line, and at most one
line that cannot be read. -/
inductive IniCall where
  | give (lineno : ℕ) (sect name value : List Char)
  | stop (lineno : ℕ)

def calls : ℕ → IniState → List IniItem → List IniCall
  | _, _, [] => []
  | lineno, st, .nothing :: items => calls (lineno + 1) st items
  | lineno, _, .header name :: items => calls (lineno + 1) ⟨strncpy0 name MAX_SECTION, []⟩ items
  | lineno, st, .pair name value :: items =>
    .give (lineno + 1) st.sect name value ::
      calls (lineno + 1) { st with prev_name := strncpy0 name MAX_NAME } items
  | lineno, st, .more value :: items =>
    .give (lineno + 1) st.sect st.prev_name value :: calls (lineno + 1) st items
  | lineno, _, .malformed :: _ => [.stop (lineno + 1)]

section Feed

variable {m : Type → Type} [Monad m] {σ : Type}
  (handler : σ → List Char → List Char → List Char → m (σ × Bool))

/-- The handler is given one after the other, until it refuses one. -/
def feed : List IniCall → σ → m (σ × ℕ)
  | [], user => pure (user, 0)
  | .give lineno sect name value :: cs, user =>
    handler user sect name value >>= fun r => if r.2 = true then feed cs r.1 else pure (r.1, lineno)
  | .stop lineno :: _, user => pure (user, lineno)

/-- The loop of `ini_parse_stream` reads and hands over.
SOURCE: lib/ff_ini_parser.c:99-172 -/
theorem iniLoop_eq_feed (lineno : ℕ) (st : IniState) (user : σ) (lines : List (List Char)) :
    iniLoop handler lineno st user lines =
      feed handler (calls lineno st (readItems lineno st.prev_name lines)) user := by
  induction lines generalizing lineno st user with
  | nil => rfl
  | cons line lines ih =>
    rw [iniLoop, readItems]
    cases hitem : readItem (lineno + 1) st.prev_name line with
    | nothing =>
      simp only [nextName, calls]
      exact ih (lineno + 1) st user
    | header name =>
      simp only [nextName, calls]
      exact ih (lineno + 1) ⟨strncpy0 name MAX_SECTION, []⟩ user
    | pair name value =>
      simp only [nextName, calls, feed]
      congr 1
      funext r
      rw [ih]
    | more value =>
      simp only [nextName, calls, feed]
      congr 1
      funext r
      rw [ih]
    | malformed => rfl

end Feed

/-! ## Reading what was written -/

def FitsAll : List Char → List IniText → Prop
  | _, [] => True
  | prev_name, t :: ts => CanFollow prev_name t ∧ FitsAll (nextName prev_name t.item) ts

/-- A line of a file: its text, and the blanks at its end. -/
structure FileLine where
  text : IniText
  trail : List Char

def FileLine.line (l : FileLine) : List Char := l.text.render ++ l.trail

/-- A file that is written line by line, with or without a byte order mark. -/
structure IniFile where
  mark : Bool
  first : FileLine
  rest : List FileLine
  fits : FitsAll [] (first.text :: rest.map FileLine.text)
  trails : ∀ l ∈ first :: rest, Blank l.trail
  readable : ∀ line ∈ ((if mark = true then bom else []) ++ first.line) :: rest.map FileLine.line, ReadableLine line
  unmarked : mark = false → ¬ bom <+: first.line

namespace IniFile

def lines (f : IniFile) : List (List Char) :=
  ((if f.mark = true then bom else []) ++ f.first.line) :: f.rest.map FileLine.line

def text (f : IniFile) : List Char := fileText f.lines

/-- What the lines say, without their layout. -/
def items (f : IniFile) : List IniItem := (f.first.text :: f.rest.map FileLine.text).map IniText.item

end IniFile

theorem CanFollow.item_of_empty {prev_name : List Char} {t : IniText} (hfits : CanFollow prev_name t)
    (hempty : t.render = []) : t.item = .nothing := by
  cases hfits with
  | blank => rfl
  | comment => rfl
  | header => simp [IniText.render] at hempty
  | entry => simp [IniText.render] at hempty
  | more hprev hne => exact absurd (List.append_eq_nil_iff.mp hempty).1 hne

/-- INTERNAL: a line behind the first. -/
theorem isLine_later {lineno : ℕ} {prev_name e : List Char} {l : FileLine} (hlineno : lineno ≠ 1)
    (hblank : Blank l.trail) (he : Blank e) : IsLine lineno prev_name l.text (l.line ++ e) := by
  have hskip : ∀ line, skipBom lineno line = line := fun line => if_neg fun h => hlineno h.1
  refine ⟨⟨l.trail ++ e, hblank.append he, ?_⟩, fun _ => hskip _⟩
  rw [hskip, FileLine.line, List.append_assoc]

theorem calls_cons {lineno : ℕ} {st : IniState} {item : IniItem} {rest rest' : List IniItem}
    (h : ∀ st' : IniState, st'.prev_name = nextName st.prev_name item →
      calls (lineno + 1) st' rest = calls (lineno + 1) st' rest') :
    calls lineno st (item :: rest) = calls lineno st (item :: rest') := by
  cases item with
  | nothing => exact h st rfl
  | header name => exact h ⟨strncpy0 name MAX_SECTION, []⟩ rfl
  | pair name value => exact congrArg (List.cons _) (h { st with prev_name := strncpy0 name MAX_NAME } rfl)
  | more value => exact congrArg (List.cons _) (h st rfl)
  | malformed => rfl

theorem calls_later {lineno : ℕ} {st : IniState} (hlineno : lineno ≠ 0) (ls : List FileLine)
    (hfits : FitsAll st.prev_name (ls.map FileLine.text)) (hblank : ∀ l ∈ ls, Blank l.trail) :
    calls lineno st (readItems lineno st.prev_name (lineTexts (ls.map FileLine.line))) =
      calls lineno st ((ls.map FileLine.text).map IniText.item) := by
  induction ls generalizing lineno st with
  | nil => rfl
  | cons l ls ih =>
    obtain ⟨hfit, hfits⟩ := hfits
    have hl := hblank l List.mem_cons_self
    have hread : ∀ e, Blank e → readItem (lineno + 1) st.prev_name (l.line ++ e) = l.text.item :=
      fun e he => readItem_render hfit (isLine_later (by omega) hl he)
    cases ls with
    | nil =>
      rw [List.map_singleton, lineTexts]
      split
      · rename_i hnil
        rw [List.map_singleton, List.map_singleton,
          hfit.item_of_empty (List.append_eq_nil_iff.mp hnil).1]
        rfl
      · have hlast := hread [] (by simp [Blank])
        rw [List.append_nil] at hlast
        rw [readItems, hlast]
        rfl
    | cons next ls =>
      have hend := hread ['\n'] (by simp [Blank, isSpace])
      have hlines : lineTexts ((l :: next :: ls).map FileLine.line) =
          (l.line ++ ['\n']) :: lineTexts ((next :: ls).map FileLine.line) := rfl
      rw [hlines, readItems, hend]
      refine calls_cons fun st' hprev => ?_
      rw [← hprev]
      exact ih (by omega) (hprev ▸ hfits) fun l hl => hblank l (List.mem_cons_of_mem _ hl)

/-- INTERNAL: the first line, behind its byte order mark if it has one. -/
theorem isLine_first (f : IniFile) {e : List Char} (he : e = [] ∨ e = ['\n']) :
    IsLine 1 [] f.first.text (((if f.mark = true then bom else []) ++ f.first.line) ++ e) := by
  have hblank : Blank e := by
    rcases he with rfl | rfl
    · simp [Blank]
    · simp [Blank, isSpace]
  refine ⟨⟨f.first.trail ++ e, (f.trails _ List.mem_cons_self).append hblank, ?_⟩, fun h => absurd rfl h⟩
  cases hmark : f.mark with
  | true => simp [skipBom, bom, FileLine.line]
  | false =>
    have hno : ¬ bom <+: f.first.line ++ e := by
      rcases he with rfl | rfl
      · simpa using f.unmarked hmark
      · intro h
        rcases List.prefix_concat_iff.mp h with heq | h
        · have : '\n' ∈ bom := by rw [heq]; simp
          exact absurd this (by decide)
        · exact f.unmarked hmark h
    have hskip : skipBom 1 (f.first.line ++ e) = f.first.line ++ e := by
      refine if_neg fun h => hno ?_
      rw [← h.2]
      exact List.take_prefix 3 _
    simp only [Bool.false_eq_true, if_false, List.nil_append, hskip]
    rw [FileLine.line, List.append_assoc]

theorem calls_written (f : IniFile) :
    calls 0 {} (readItems 0 [] (lineTexts f.lines)) = calls 0 {} f.items := by
  obtain ⟨hfit, hfits⟩ := f.fits
  have hread : ∀ e, e = [] ∨ e = ['\n'] → readItem 1 []
      (((if f.mark = true then bom else []) ++ f.first.line) ++ e) = f.first.text.item :=
    fun e he => readItem_render hfit (isLine_first f he)
  have hempty : ((if f.mark = true then bom else []) ++ f.first.line) = [] → f.first.text.render = [] :=
    fun hnil => (List.append_eq_nil_iff.mp (List.append_eq_nil_iff.mp hnil).2).1
  have htrails : ∀ l ∈ f.rest, Blank l.trail := fun l hl => f.trails l (List.mem_cons_of_mem _ hl)
  unfold IniFile.lines IniFile.items
  generalize ((if f.mark = true then bom else []) ++ f.first.line) = head at hread hempty ⊢
  cases hrest : f.rest with
  | nil =>
    rw [List.map_nil, lineTexts]
    split
    · rename_i hnil
      have hempty := hempty hnil
      rw [List.map_nil, List.map_singleton, hfit.item_of_empty hempty]
      rfl
    · have hlast := hread [] (.inl rfl)
      rw [List.append_nil] at hlast
      rw [readItems, hlast]
      rfl
  | cons next rest =>
    rw [hrest] at hfits htrails
    have hend := hread ['\n'] (.inr rfl)
    have hlines : ∀ l, lineTexts (l :: (next :: rest).map FileLine.line) =
        (l ++ ['\n']) :: lineTexts ((next :: rest).map FileLine.line) := fun _ => rfl
    rw [hlines, readItems, hend]
    refine calls_cons fun st' hprev => ?_
    have hprev' : nextName [] f.first.text.item = st'.prev_name := hprev.symm
    rw [hprev'] at hfits ⊢
    exact calls_later (by omega) _ hfits htrails

/-- What the lines of a file are. -/
def fileItems (text : List Char) : List IniItem := readItems 0 [] (readLines text.length text)

theorem calls_fileItems_text (f : IniFile) : calls 0 {} (fileItems f.text) = calls 0 {} f.items := by
  unfold fileItems IniFile.text
  have hread : readLines (fileText f.lines).length (fileText f.lines) = lineTexts f.lines :=
    readLines_fileText f.readable le_rfl
  rw [hread, calls_written]

theorem iniParseStream_eq_feed {m : Type → Type} [Monad m] {σ : Type}
    (handler : σ → List Char → List Char → List Char → m (σ × Bool)) (user : σ) (text : List Char) :
    iniParseStream handler user text = feed handler (calls 0 {} (fileItems text)) user :=
  iniLoop_eq_feed handler 0 {} user _

/-- A file comes to what its lines say, in any layout: a handler is given the sections, names and values
that were written, in order, until it refuses one.
SOURCE: lib/ff_ini_parser.c:70-179 -/
theorem iniParseStream_written {m : Type → Type} [Monad m] {σ : Type}
    (handler : σ → List Char → List Char → List Char → m (σ × Bool)) (user : σ) (f : IniFile) :
    iniParseStream handler user f.text = feed handler (calls 0 {} f.items) user := by
  rw [iniParseStream_eq_feed, calls_fileItems_text]

/-! ## Writing what was read -/

/-- A line as `fgets` leaves it: the end of a line stands only at its end. -/
structure OneLine (line : List Char) : Prop where
  no_zero : ∀ c ∈ line, c.toNat ≠ 0
  no_end : ∀ pre post, line = pre ++ '\n' :: post → post = []

theorem fgets_oneLine (num : ℕ) (s : List Char) (pre post : List Char)
    (h : (fgets num s).1 = pre ++ '\n' :: post) : post = [] := by
  induction num generalizing s pre with
  | zero => simp [fgets] at h
  | succ num ih =>
    cases s with
    | nil => simp [fgets] at h
    | cons c s =>
      rw [fgets] at h
      split at h
      · cases pre with
        | nil => exact (List.cons.inj h).2.symm
        | cons d pre => simp at h
      · rename_i hc
        cases pre with
        | nil => exact absurd (List.cons.inj h).1 hc
        | cons d pre => exact ih s pre (List.cons.inj h).2

theorem readLines_oneLine {turns : ℕ} {s line : List Char} (h : line ∈ readLines turns s) : OneLine line := by
  induction turns generalizing s with
  | zero => cases h
  | succ turns ih =>
    cases s with
    | nil => cases h
    | cons c s =>
      rcases List.mem_cons.mp h with rfl | h
      · refine ⟨fun d hd => by simpa using List.mem_takeWhile_imp hd, fun pre post heq => ?_⟩
        obtain ⟨rest, hrest⟩ := List.takeWhile_prefix (l := (fgets (INI_MAX_LINE - 1) (c :: s)).1)
          fun c => decide (c.toNat ≠ 0)
        rw [heq, List.append_assoc] at hrest
        exact (List.append_eq_nil_iff.mp (fgets_oneLine _ _ _ _ hrest.symm)).1
      · exact ih h

theorem OneLine.suffix {s t : List Char} (hs : OneLine s) (ht : t <:+ s) : OneLine t := by
  obtain ⟨u, rfl⟩ := ht
  refine ⟨fun c hc => hs.no_zero c (List.mem_append_right _ hc), fun pre post heq => ?_⟩
  exact hs.no_end (u ++ pre) post (by rw [heq, List.append_assoc])

theorem skipBom_suffix (lineno : ℕ) (line : List Char) : skipBom lineno line <:+ line := by
  unfold skipBom
  split
  · exact List.drop_suffix 3 line
  · exact List.suffix_rfl

theorem rstrip_last (s : List Char) : ∀ c ∈ (rstrip s).getLast?, isSpace c = false := by
  intro c hc
  have hne : rstrip s ≠ [] := by
    rintro hnil
    rw [hnil] at hc
    cases hc
  have hlast : ¬isSpace ((rstrip s).getLast hne) = true := List.rdropWhile_last_not isSpace s hne
  rw [List.getLast?_eq_getLast_of_ne_nil hne] at hc
  cases hc
  simpa using hlast

theorem lskip_first (s : List Char) : ∀ c ∈ (lskip s).head?, isSpace c = false := by
  intro c hc
  have hfirst := List.head?_dropWhile_not isSpace s
  have hhead : (s.dropWhile isSpace).head? = some c := hc
  rw [hhead] at hfirst
  exact hfirst

/-- What is left of a line has no end of a line. -/
theorem OneLine.rstrip {s : List Char} (hs : OneLine s) : InLine (rstrip s) := by
  intro c hc
  have hbegin : FStack.Model.rstrip s <+: s := List.rdropWhile_prefix isSpace _
  refine ⟨?_, hs.no_zero c (hbegin.mem hc)⟩
  rintro rfl
  obtain ⟨pre, post, heq⟩ := List.append_of_mem hc
  obtain ⟨rest, hrest⟩ := hbegin
  rw [heq, List.append_assoc] at hrest
  have hpost := (List.append_eq_nil_iff.mp (hs.no_end pre (post ++ rest) hrest.symm)).1
  have hlast := rstrip_last s '\n' (by rw [heq, hpost]; simp)
  exact absurd hlast (by decide)

theorem InLine.mono {s t : List Char} (hs : InLine s) (h : ∀ c ∈ t, c ∈ s) : InLine t := fun c hc => hs c (h c hc)

theorem NoNote.part {s t : List Char} (hs : NoNote s) (h : t <:+: s) : NoNote t := List.IsChain.infix hs h

theorem findCharsOrComment_found {chars s a b : List Char} {was_space : Bool}
    (h : findCharsOrComment chars was_space s = (a, b)) :
    a ++ b = s ∧ (∀ c ∈ a, c ∉ chars) ∧ NoNote a ∧ (was_space = true → a.head? ≠ some ';') := by
  induction s generalizing was_space a with
  | nil =>
    cases h
    exact ⟨rfl, by simp, List.isChain_nil, by simp⟩
  | cons c s ih =>
    rw [findCharsOrComment] at h
    split at h
    · cases h
      exact ⟨rfl, by simp, List.isChain_nil, by simp⟩
    · rename_i hstop
      rw [not_or] at hstop
      cases h
      obtain ⟨happend, hchars, hnote, hhead⟩ := ih (a := (findCharsOrComment chars (isSpace c) s).1) rfl
      refine ⟨by rw [List.cons_append, happend], ?_, ?_, fun hw heq => ?_⟩
      · exact List.forall_mem_cons.mpr ⟨hstop.1, hchars⟩
      · refine List.isChain_cons.mpr ⟨fun d hd hspace hsemi => hhead hspace ?_, hnote⟩
        rw [← hsemi]
        exact hd
      · exact hstop.2 ⟨hw, by simpa using heq⟩

theorem lskip_suffix (s : List Char) : lskip s <:+ s := List.dropWhile_suffix _

theorem rstrip_begins (s : List Char) : rstrip s <+: s := List.rdropWhile_prefix isSpace _

/-- A text that is stripped at both ends. -/
theorem trimmed_strip (s : List Char) : Trimmed (rstrip (lskip s)) := by
  refine ⟨fun c hc => ?_, rstrip_last _⟩
  obtain ⟨rest, hrest⟩ := rstrip_begins (lskip s)
  cases hstrip : rstrip (lskip s) with
  | nil =>
    rw [hstrip] at hc
    cases hc
  | cons d t =>
    rw [hstrip] at hc hrest
    cases hc
    exact lskip_first s c (by rw [← hrest]; rfl)

/-- The line that says the same, in the plainest layout. -/
def plainText : IniItem → IniText
  | .nothing | .malformed => .blank
  | .header name => .header [] name []
  | .pair name value => .entry [] name [] '=' [] value []
  | .more value => .more [' '] value

theorem item_plainText {item : IniItem} (h : item ≠ .malformed) : (plainText item).item = item := by
  cases item <;> first | rfl | exact absurd rfl h

/-- A line that says something can be written again, and is not longer then. -/
structure Rewritten (prev_name line : List Char) (item : IniItem) : Prop where
  fits : CanFollow prev_name (plainText item)
  inLine : InLine (plainText item).render
  length : (plainText item).render.length ≤ line.length

theorem Indent.nil (prev_name : List Char) : Indent prev_name [] := ⟨by simp [Blank], fun _ => rfl⟩

/-- A line stripped at its end, and what it begins with behind the blanks. -/
structure Begins (stripped : List Char) (c : Char) (start : List Char) : Prop where
  inLine : InLine stripped
  suffix : c :: start <:+ stripped
  first : isSpace c = false
  last : ∀ d ∈ (c :: start).getLast?, isSpace d = false

theorem Begins.inLine_start {stripped start : List Char} {c : Char} (h : Begins stripped c start) :
    InLine (c :: start) := h.inLine.mono fun _ hd => h.suffix.mem hd

theorem begins_lskip {stripped start : List Char} {c : Char} (hbare : InLine stripped)
    (hlast : ∀ d ∈ stripped.getLast?, isSpace d = false) (hstart : lskip stripped = c :: start) :
    Begins stripped c start := by
  have hsuffix : c :: start <:+ stripped := hstart ▸ lskip_suffix stripped
  refine ⟨hbare, hsuffix, lskip_first stripped c (by rw [hstart]; rfl), fun d hd => hlast d ?_⟩
  obtain ⟨u, hu⟩ := hsuffix
  rw [← hu, List.getLast?_append, Option.mem_def.mp hd]
  rfl

theorem Begins.rewritten_more {prev_name stripped start : List Char} {c : Char} (h : Begins stripped c start)
    (hprev : prev_name ≠ []) (hmoved : c :: start ≠ stripped) (hsemi : c ≠ ';') (hhash : c ≠ '#') :
    Rewritten prev_name stripped (.more (c :: start)) := by
  have hlt : (c :: start).length < stripped.length :=
    lt_of_le_of_ne h.suffix.length_le fun heq => hmoved (h.suffix.eq_of_length heq)
  have hfirst : ∀ d ∈ (c :: start).head?, isSpace d = false := by simpa using h.first
  refine ⟨.more hprev (by simp) (by simp [Blank, isSpace]) ⟨hfirst, h.last⟩ ⟨c, rfl, hsemi, hhash⟩, ?_, ?_⟩
  · exact List.forall_mem_cons.mpr ⟨by decide, h.inLine_start⟩
  · simp only [plainText, IniText.render, List.singleton_append, List.length_cons] at hlt ⊢
    omega

theorem Begins.rewritten_header {prev_name stripped start name rest : List Char}
    (h : Begins stripped '[' start) (hfound : findCharsOrComment [']'] false start = (name, ']' :: rest)) :
    Rewritten prev_name stripped (.header name) := by
  obtain ⟨hsplit, hchars, hnote, -⟩ := findCharsOrComment_found hfound
  have hlen := h.suffix.length_le
  rw [← hsplit] at hlen
  refine ⟨.header (Indent.nil _) hnote (fun hclose => hchars ']' hclose (by simp)), ?_, ?_⟩
  · refine h.inLine_start.mono fun d hd => ?_
    rw [← hsplit]
    simp only [plainText, IniText.render, List.nil_append, List.mem_cons, List.mem_append,
      List.not_mem_nil, or_false] at hd ⊢
    tauto
  · simp only [plainText, IniText.render, List.nil_append, List.length_cons, List.length_append,
      List.length_nil] at hlen ⊢
    omega

/-- The name that a line begins with. -/
theorem Begins.entryName {stripped start name rest : List Char} {c e : Char} (h : Begins stripped c start)
    (hfirst : c ≠ ';' ∧ c ≠ '#' ∧ c ≠ '[')
    (hfound : findCharsOrComment ['=', ':'] false (c :: start) = (name, e :: rest)) :
    EntryName (rstrip name) := by
  obtain ⟨hsplit, hchars, hnote, -⟩ := findCharsOrComment_found hfound
  have hbegin := rstrip_begins name
  have hhead : ∀ d ∈ (rstrip name).head?, d = c := by
    intro d hd
    obtain ⟨u, hu⟩ := hbegin
    cases hstrip : rstrip name with
    | nil =>
      rw [hstrip] at hd
      cases hd
    | cons x t =>
      rw [hstrip] at hd hu
      cases hd
      rw [← hu] at hsplit
      exact (List.cons.inj hsplit).1
  refine ⟨⟨fun d hd => ?_, rstrip_last name⟩, hnote.part hbegin.isInfix, fun d hd => ?_, fun d hd => ?_⟩
  · rw [hhead d hd]
    exact h.first
  · simpa using hchars d (hbegin.mem hd)
  · rw [hhead d hd]
    exact hfirst

theorem Begins.rewritten_pair {prev_name stripped start name rest : List Char} {c e : Char}
    (h : Begins stripped c start) (hfirst : c ≠ ';' ∧ c ≠ '#' ∧ c ≠ '[')
    (hfound : findCharsOrComment ['=', ':'] false (c :: start) = (name, e :: rest)) :
    Rewritten prev_name stripped
      (.pair (rstrip name) (rstrip (lskip (findCharsOrComment [] false rest).1))) := by
  obtain ⟨hsplit, -⟩ := findCharsOrComment_found hfound
  generalize hr : (findCharsOrComment [] false rest).1 = r
  have hend : findCharsOrComment [] false rest = (r, (findCharsOrComment [] false rest).2) := by rw [← hr]
  obtain ⟨hrest, -, hfree, -⟩ := findCharsOrComment_found hend
  have hname := rstrip_begins name
  have hvalue : rstrip (lskip r) <:+: r := (rstrip_begins _).isInfix.trans (lskip_suffix r).isInfix
  refine ⟨.entry (Indent.nil _) (h.entryName hfirst hfound) (by simp [Blank]) (fun _ => rfl) (.inl rfl)
    (by simp [Blank]) (trimmed_strip r) (hfree.part hvalue) (.inl rfl), ?_, ?_⟩
  · have hin := h.inLine_start
    rw [← hsplit, ← hrest] at hin
    intro d hd
    simp only [plainText, IniText.render, List.nil_append, List.append_nil, List.mem_append,
      List.mem_cons] at hd
    rcases hd with hd | rfl | hd
    · exact hin d (List.mem_append_left _ (hname.mem hd))
    · decide
    · exact hin d (by simp [hvalue.mem hd])
  · have hlen := h.suffix.length_le
    rw [← hsplit, ← hrest] at hlen
    have hname' := hname.length_le
    have hvalue' := hvalue.length_le
    simp only [plainText, IniText.render, List.nil_append, List.append_nil, List.length_append,
      List.length_cons] at hlen ⊢
    omega

/-- Every line that is not malformed is one that could have been written.
SOURCE: lib/ff_ini_parser.c:103-163 -/
theorem readItem_rewritten {lineno : ℕ} {prev_name line : List Char} (hone : OneLine line)
    (hfirst : lineno = 1 → prev_name = []) (hgood : readItem lineno prev_name line ≠ .malformed) :
    Rewritten prev_name (rstrip (skipBom lineno line)) (readItem lineno prev_name line) := by
  have hbare : InLine (rstrip (skipBom lineno line)) := (hone.suffix (skipBom_suffix lineno line)).rstrip
  have hlast := rstrip_last (skipBom lineno line)
  have hunmoved : prev_name ≠ [] → skipBom lineno line = line := fun hprev =>
    if_neg fun h => hprev (hfirst h.1)
  unfold readItem at hgood ⊢
  dsimp only at hgood ⊢
  generalize rstrip (skipBom lineno line) = stripped at hbare hlast hgood ⊢
  have hnothing : Rewritten prev_name stripped .nothing :=
    ⟨.blank, by simp [InLine, plainText, IniText.render], by simp [plainText, IniText.render]⟩
  cases hstart : lskip stripped with
  | nil => exact hnothing
  | cons c start =>
    have hbegins := begins_lskip hbare hlast hstart
    rw [hstart] at hgood
    dsimp only at hgood ⊢
    split at hgood
    · rename_i hmark
      rw [if_pos hmark]
      exact hnothing
    rename_i hmark
    rw [if_neg hmark]
    rw [not_or] at hmark
    split at hgood
    · rename_i hcont
      rw [if_pos hcont]
      refine hbegins.rewritten_more hcont.1 ?_ hmark.1 hmark.2
      rcases hcont.2 with hmoved | hmoved
      · exact absurd (hunmoved hcont.1) hmoved
      · exact hmoved
    rename_i hcont
    rw [if_neg hcont]
    split at hgood
    · rename_i hopen
      subst hopen
      rw [if_pos rfl]
      split at hgood
      · rename_i hfound
        exact hbegins.rewritten_header hfound
      · exact absurd rfl hgood
    · rename_i hopen
      rw [if_neg hopen]
      split at hgood
      · rename_i hfound
        split at hgood
        · rename_i hsep
          rw [if_pos hsep]
          exact hbegins.rewritten_pair ⟨hmark.1, hmark.2, hopen⟩ hfound
        · exact absurd rfl hgood
      · exact absurd rfl hgood

/-- The file that says the same in the plainest layout. -/
def rewriteText (items : List IniItem) : List Char :=
  bom ++ fileText (items.map fun item => (plainText item).render)

theorem fitsAll_plain {lineno : ℕ} {prev_name : List Char} {lines : List (List Char)}
    (hlines : ∀ line ∈ lines, OneLine line) (hfirst : lineno = 0 → prev_name = [])
    (hgood : IniItem.malformed ∉ readItems lineno prev_name lines) :
    FitsAll prev_name ((readItems lineno prev_name lines).map plainText) := by
  induction lines generalizing lineno prev_name with
  | nil => trivial
  | cons line lines ih =>
    rw [readItems, List.mem_cons, not_or] at hgood
    have hitem := Ne.symm hgood.1
    refine ⟨(readItem_rewritten (hlines line List.mem_cons_self) (fun h => hfirst (by omega)) hitem).fits, ?_⟩
    rw [item_plainText hitem]
    exact ih (fun l hl => hlines l (List.mem_cons_of_mem _ hl)) (by omega) hgood.2

theorem readable_plain {lineno k : ℕ} {prev_name : List Char} {lines : List (List Char)}
    (hlines : ∀ line ∈ lines, OneLine line ∧ line.length + k ≤ INI_MAX_LINE)
    (hfirst : lineno = 0 → prev_name = []) (hgood : IniItem.malformed ∉ readItems lineno prev_name lines) :
    ∀ item ∈ readItems lineno prev_name lines,
      InLine (plainText item).render ∧ (plainText item).render.length + k ≤ INI_MAX_LINE := by
  induction lines generalizing lineno prev_name with
  | nil => simp [readItems]
  | cons line lines ih =>
    rw [readItems, List.mem_cons, not_or] at hgood
    obtain ⟨hone, hlen⟩ := hlines line List.mem_cons_self
    have hread := readItem_rewritten hone (fun h => hfirst (by omega)) (Ne.symm hgood.1)
    have hshort : (rstrip (skipBom (lineno + 1) line)).length ≤ line.length :=
      (rstrip_begins _).length_le.trans (skipBom_suffix _ line).length_le
    rw [readItems]
    refine List.forall_mem_cons.mpr ⟨⟨hread.inLine, ?_⟩,
      ih (fun l hl => hlines l (List.mem_cons_of_mem _ hl)) (by omega) hgood.2⟩
    have := hread.length
    omega

/-- A file without a malformed line and without very long ones is read like the file that is written anew
from what was read: the same calls, the same error, in the same line.
SOURCE: lib/ff_ini_parser.c:70-179 -/
theorem iniParseStream_rewritten {m : Type → Type} [Monad m] {σ : Type}
    (handler : σ → List Char → List Char → List Char → m (σ × Bool)) (user : σ) (text : List Char)
    (hshort : ∀ line ∈ readLines text.length text, line.length + 5 ≤ INI_MAX_LINE)
    (hgood : IniItem.malformed ∉ fileItems text) :
    iniParseStream handler user (rewriteText (fileItems text)) = iniParseStream handler user text := by
  have hlines : ∀ line ∈ readLines text.length text, OneLine line := fun line h => readLines_oneLine h
  have hfits := fitsAll_plain hlines (fun _ => rfl) hgood
  have hread := readable_plain (k := 5) (fun l hl => ⟨hlines l hl, hshort l hl⟩) (fun _ => rfl) hgood
  have hsame : ∀ item ∈ fileItems text, (plainText item).item = item := fun item h =>
    item_plainText (ne_of_mem_of_not_mem h hgood)
  rw [iniParseStream_eq_feed handler user (rewriteText _), iniParseStream_eq_feed handler user text]
  change FitsAll [] ((fileItems text).map plainText) at hfits
  change ∀ item ∈ fileItems text, _ at hread
  congr 1
  generalize fileItems text = items at hfits hread hsame ⊢
  have hline : ∀ item ∈ items, ReadableLine (plainText item).render := fun item h =>
    ⟨(hread item h).1, by have := (hread item h).2; omega⟩
  cases items with
  | nil => rfl
  | cons item items =>
    let f : IniFile :=
      { mark := true
        first := ⟨plainText item, []⟩
        rest := items.map fun i => ⟨plainText i, []⟩
        fits := by simpa [Function.comp_def] using hfits
        trails := by simp [Blank]
        readable := by
          have hfirst : ReadableLine (bom ++ (plainText item).render) := by
            obtain ⟨hin, hlen⟩ := hread item List.mem_cons_self
            refine ⟨List.forall_mem_append.mpr ⟨inLine_bom, hin⟩, ?_⟩
            rw [List.length_append]
            simp only [bom, List.length_cons, List.length_nil]
            omega
          simpa [FileLine.line] using And.intro hfirst fun i hi => hline i (List.mem_cons_of_mem _ hi)
        unmarked := by simp }
    have htext : rewriteText (item :: items) = f.text := by
      have hlines : f.lines = (bom ++ (plainText item).render) :: items.map fun i => (plainText i).render := by
        simp [f, IniFile.lines, FileLine.line]
      rw [IniFile.text, hlines, rewriteText]
      cases items with
      | nil => rfl
      | cons next items => exact (List.append_assoc bom _ _).symm
    have hitems : f.items = item :: items := by
      have hrest : items.map (fun i => (plainText i).item) = items.map id :=
        List.map_congr_left fun i hi => hsame i (List.mem_cons_of_mem _ hi)
      simp [f, IniFile.items, Function.comp_def, hsame item List.mem_cons_self, hrest]
    rw [htext, calls_fileItems_text, hitems]

/-- A section with an entry that has a comment and goes on in the next line. -/
def remarkedText : List Char := "[dpdk]\nallow = a ;b\n c\n".toList

theorem iniParseStream_rewritten_remarked :
    iniParseStream (m := Id) (fun log sect name value => (log ++ [(sect, name, value)], true)) []
        (rewriteText (fileItems remarkedText)) =
      iniParseStream (m := Id) (fun log sect name value => (log ++ [(sect, name, value)], true)) []
        remarkedText :=
  iniParseStream_rewritten _ _ _ (by decide) (by decide)

end FStack.Analysis
