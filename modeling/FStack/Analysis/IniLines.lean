import FStack.Model.IniParser
import Mathlib.Data.List.Chain

/-!
# The lines of a configuration file

A line is described by its parts (`IniText`), and `CanFollow` says when the parts can stand side by side, behind
an entry whose value may go on.  `ini_parse` reads such a line as it was written (`readItem_render`).
-/

set_option autoImplicit false

namespace FStack.Analysis

open FStack.Model FStack.Prelude

variable {s ws prev_name : List Char}
variable {t chars indent line : List Char} {c : Char} {was_space : Bool}

/-! ## Blanks and notes -/

def Blank (s : List Char) : Prop := ∀ c ∈ s, isSpace c = true

/-- No end of a line, and no end of a string. -/
def InLine (s : List Char) : Prop := ∀ c ∈ s, c ≠ '\n' ∧ c.toNat ≠ 0

structure Trimmed (s : List Char) : Prop where
  first : ∀ c ∈ s.head?, isSpace c = false
  last : ∀ c ∈ s.getLast?, isSpace c = false

/-- There is no semicolon behind a blank. -/
def NoNote (s : List Char) : Prop := s.IsChain fun a b => isSpace a = true → b ≠ ';'

/-- A comment at the end of a line, or nothing. -/
def IsNote (s : List Char) : Prop :=
  s = [] ∨ ∃ ws text, ws ≠ [] ∧ Blank ws ∧ s = ws ++ ';' :: text

/-- Whether the character before what follows `s` is a blank, where `was_space` says it of the one
before `s`. -/
def endsBlank (was_space : Bool) (s : List Char) : Bool := (s.getLast?.map isSpace).getD was_space

theorem Blank.append (hs : Blank s) (ht : Blank t) : Blank (s ++ t) :=
  List.forall_mem_append.mpr ⟨hs, ht⟩

theorem Blank.noNote (hs : Blank s) : NoNote s := by
  refine List.isChain_iff_forall_rel_of_append_cons_cons.mpr ?_
  rintro a b l₁ l₂ rfl - rfl
  exact absurd (hs ';' (by simp)) (by decide)

theorem NoNote.append_blank (hs : NoNote s) (hws : Blank ws) : NoNote (s ++ ws) := by
  refine List.isChain_append.mpr ⟨hs, hws.noNote, ?_⟩
  rintro a - b hb - rfl
  exact absurd (hws ';' (List.mem_of_mem_head? hb)) (by decide)

theorem lskip_append (hws : Blank ws) : lskip (ws ++ s) = lskip s :=
  List.dropWhile_append_of_pos hws

theorem lskip_of_first (h : ∀ c ∈ s.head?, isSpace c = false) : lskip s = s := by
  cases s with
  | nil => rfl
  | cons c s =>
    have hc : isSpace c = false := h c rfl
    simp [lskip, hc]

theorem rstrip_append (hws : Blank ws) : rstrip (s ++ ws) = rstrip s := by
  unfold rstrip List.rdropWhile
  rw [List.reverse_append, List.dropWhile_append_of_pos fun c hc => hws c (List.mem_reverse.mp hc)]

theorem rstrip_of_last (h : ∀ c ∈ s.getLast?, isSpace c = false) : rstrip s = s := by
  refine List.rdropWhile_eq_self_iff.mpr fun hne => ?_
  have := h (s.getLast hne) (List.getLast?_eq_getLast_of_ne_nil hne)
  simp [this]

/-- Nothing is stripped in front of the last character that is not blank. -/
theorem rstrip_cons (hc : isSpace c = false) :
    rstrip (s ++ c :: t) = s ++ c :: rstrip t := by
  induction t using List.reverseRecOn with
  | nil => exact rstrip_of_last (by simp [hc])
  | append_singleton t d ih =>
    cases hd : isSpace d with
    | true =>
      have hblank : Blank [d] := by simpa [Blank] using hd
      rw [rstrip_append hblank, ← List.cons_append, ← List.append_assoc, rstrip_append hblank, ih]
    | false =>
      rw [rstrip_of_last (s := t ++ [d]) (by simp [hd]),
        rstrip_of_last (by simp [List.getLast?_append, List.getLast?_cons, hd])]

theorem rstrip_lskip {a v b : List Char} (ha : Blank a) (hv : Trimmed v) (hb : Blank b) :
    rstrip (lskip (a ++ (v ++ b))) = v := by
  rw [lskip_append ha]
  cases v with
  | nil =>
    rw [List.nil_append, ← List.append_nil b, lskip_append hb]
    rfl
  | cons c v =>
    rw [lskip_of_first (by simpa using hv.first c rfl), rstrip_append hb, rstrip_of_last hv.last]

/-- The search passes over a text without the characters and without a note. -/
theorem findCharsOrComment_append (rest : List Char) (hs : ∀ c ∈ s, c ∉ chars) (hnote : NoNote s)
    (hw : was_space = true → s.head? ≠ some ';') :
    findCharsOrComment chars was_space (s ++ rest) =
      (s ++ (findCharsOrComment chars (endsBlank was_space s) rest).1,
        (findCharsOrComment chars (endsBlank was_space s) rest).2) := by
  induction s generalizing was_space with
  | nil => rfl
  | cons c s ih =>
    have hstop : ¬(c ∈ chars ∨ (was_space = true ∧ c = ';')) := by
      rintro (hc | ⟨hblank, rfl⟩)
      · exact hs c List.mem_cons_self hc
      · exact hw hblank rfl
    have hnext : isSpace c = true → s.head? ≠ some ';' := by
      intro hblank hhead
      cases s with
      | nil => cases hhead
      | cons d s =>
        cases hhead
        exact (List.isChain_cons_cons.mp hnote).1 hblank rfl
    have hends : endsBlank was_space (c :: s) = endsBlank (isSpace c) s := by
      cases s with
      | nil => rfl
      | cons d s => simp [endsBlank, List.getLast?_cons]
    rw [List.cons_append, findCharsOrComment, if_neg hstop,
      ih (fun d hd => hs d (List.mem_cons_of_mem _ hd)) hnote.tail hnext, hends]
    rfl

theorem findCharsOrComment_stop (rest : List Char) (hc : c ∈ chars ∨ (was_space = true ∧ c = ';')) :
    findCharsOrComment chars was_space (c :: rest) = ([], c :: rest) := by
  rw [findCharsOrComment, if_pos hc]

theorem endsBlank_append {w : Bool} (hne : ws ≠ []) (hws : Blank ws) :
    endsBlank w (s ++ ws) = true := by
  have hlast := List.getLast?_eq_getLast_of_ne_nil hne
  simp [endsBlank, List.getLast?_append, hlast, hws _ (List.getLast_mem hne)]

/-! ## Lines by their parts -/

/-- A line without its blanks at the end. -/
inductive IniText where
  | blank
  | comment (indent : List Char) (mark : Char) (text : List Char)
  | header (indent name rest : List Char)
  | entry (indent name gap : List Char) (sep : Char) (pad value note : List Char)
  | more (indent value : List Char)

namespace IniText

def render : IniText → List Char
  | blank => []
  | comment indent mark text => indent ++ mark :: text
  | header indent name rest => indent ++ '[' :: (name ++ ']' :: rest)
  | entry indent name gap sep pad value note =>
    indent ++ (name ++ (gap ++ sep :: (pad ++ (value ++ note))))
  | more indent value => indent ++ value

/-- What the line says. -/
def item : IniText → IniItem
  | blank | comment _ _ _ => .nothing
  | header _ name _ => .header name
  | entry _ name _ _ _ value _ => .pair name value
  | more _ value => .more value

end IniText

/-- The name of an entry as a line can begin with it. -/
structure EntryName (name : List Char) : Prop where
  trimmed : Trimmed name
  noNote : NoNote name
  no_sep : ∀ c ∈ name, c ≠ '=' ∧ c ≠ ':'
  first : ∀ c ∈ name.head?, c ≠ ';' ∧ c ≠ '#' ∧ c ≠ '['

/-- Blanks in front of a line, which may be there if no value can go on. -/
structure Indent (prev_name indent : List Char) : Prop where
  blank : Blank indent
  none : prev_name ≠ [] → indent = []

/-- The parts of a line can stand side by side, behind an entry with the name `prev_name`. -/
inductive CanFollow (prev_name : List Char) : IniText → Prop
  | blank : CanFollow prev_name .blank
  | comment {indent text : List Char} {mark : Char} (hindent : Blank indent)
      (hmark : mark = ';' ∨ mark = '#') : CanFollow prev_name (.comment indent mark text)
  | header {indent name rest : List Char} (hindent : Indent prev_name indent) (hname : NoNote name)
      (hclose : ']' ∉ name) : CanFollow prev_name (.header indent name rest)
  | entry {indent name gap pad value note : List Char} {sep : Char} (hindent : Indent prev_name indent)
      (hname : EntryName name) (hgap : Blank gap) (hempty : name = [] → gap = [])
      (hsep : sep = '=' ∨ sep = ':') (hpad : Blank pad) (hvalue : Trimmed value)
      (hfree : NoNote (pad ++ value)) (hnote : IsNote note) :
      CanFollow prev_name (.entry indent name gap sep pad value note)
  | more {indent value : List Char} (hprev : prev_name ≠ []) (hne : indent ≠ []) (hindent : Blank indent)
      (hvalue : Trimmed value) (hfirst : ∃ c ∈ value.head?, c ≠ ';' ∧ c ≠ '#') :
      CanFollow prev_name (.more indent value)

theorem Indent.lskip_eq (h : Indent prev_name indent) :
    lskip (indent ++ s) = lskip s := lskip_append h.blank

/-- Nothing goes on in a line without blanks in front. -/
theorem Indent.not_more {text start : List Char} (h : Indent prev_name indent)
    (hmark : prev_name ≠ [] → text = line) : ¬(prev_name ≠ [] ∧ (text ≠ line ∨ start ≠ indent ++ start)) := by
  rintro ⟨hprev, hmoved | hmoved⟩
  · exact hmoved (hmark hprev)
  · rw [h.none hprev] at hmoved
    exact hmoved rfl

section EntryName

variable {name gap : List Char} {sep : Char} (h : EntryName name)

include h

/-- An entry begins with its name, or with the separator. -/
theorem EntryName.start (hempty : name = [] → gap = []) (hsep : sep = '=' ∨ sep = ':') (rest : List Char) :
    ∃ c start, c :: start = name ++ (gap ++ sep :: rest) ∧ isSpace c = false ∧ c ≠ ';' ∧ c ≠ '#' ∧ c ≠ '[' := by
  cases name with
  | nil =>
    rw [hempty rfl]
    refine ⟨sep, rest, rfl, ?_⟩
    rcases hsep with rfl | rfl <;> decide
  | cons c name => exact ⟨c, _, rfl, h.trimmed.first c rfl, h.first c rfl⟩

theorem EntryName.findSep (hgap : Blank gap) (hsep : sep = '=' ∨ sep = ':') (rest : List Char) :
    findCharsOrComment ['=', ':'] false (name ++ (gap ++ sep :: rest)) = (name ++ gap, sep :: rest) := by
  have hchars : ∀ c ∈ name ++ gap, c ∉ ['=', ':'] := by
    intro c hc
    rcases List.mem_append.mp hc with hc | hc
    · simpa using h.no_sep c hc
    · have hblank := hgap c hc
      simp only [List.mem_cons, List.not_mem_nil, or_false]
      rintro (rfl | rfl) <;> exact absurd hblank (by decide)
  rw [← List.append_assoc, findCharsOrComment_append _ hchars (h.noNote.append_blank hgap) (by simp),
    findCharsOrComment_stop _ (.inl (by simpa using hsep)), List.append_nil]

end EntryName

/-- The value of an entry, from what stands behind the separator. -/
theorem readValue {pad value note : List Char} (hpad : Blank pad) (hvalue : Trimmed value)
    (hfree : NoNote (pad ++ value)) (hnote : IsNote note) (hws : Blank ws) :
    rstrip (lskip (findCharsOrComment [] false (rstrip (pad ++ (value ++ (note ++ ws))))).1) = value := by
  obtain rfl | ⟨gap, text, hne, hgap, rfl⟩ := hnote
  · -- no comment: the search ends with the text
    rw [List.nil_append, ← List.append_assoc, rstrip_append hws]
    have hend : (findCharsOrComment [] false (rstrip (pad ++ value))).1 = rstrip (pad ++ value) := by
      have hbegin : rstrip (pad ++ value) <+: pad ++ value := List.rdropWhile_prefix isSpace _
      have hfree' : NoNote (rstrip (pad ++ value)) := by
        obtain ⟨t, ht⟩ := hbegin
        rw [NoNote, ← ht] at hfree
        exact hfree.left_of_append
      have hsearch : findCharsOrComment [] false (rstrip (pad ++ value) ++ []) = _ :=
        findCharsOrComment_append [] (by simp) hfree' (by simp)
      rw [List.append_nil] at hsearch
      rw [hsearch]
      simp [findCharsOrComment]
    rw [hend]
    cases value with
    | nil =>
      have hstrip : rstrip (pad ++ []) = [] := by
        rw [← List.nil_append (pad ++ []), List.append_nil, rstrip_append hpad]
        rfl
      rw [hstrip]
      rfl
    | cons c value =>
      rw [rstrip_of_last (s := pad ++ c :: value)
        (by simpa [List.getLast?_append, List.getLast?_cons] using hvalue.last)]
      have := rstrip_lskip hpad hvalue (b := []) (by simp [Blank])
      rwa [List.append_nil] at this
  · -- the search stops at the semicolon behind the blanks
    have hstop : findCharsOrComment [] false (pad ++ (value ++ (gap ++ ';' :: rstrip (text ++ ws)))) =
        (pad ++ (value ++ gap), ';' :: rstrip (text ++ ws)) := by
      have hfree' : NoNote ((pad ++ value) ++ gap) := hfree.append_blank hgap
      rw [← List.append_assoc, ← List.append_assoc,
        findCharsOrComment_append _ (by simp) hfree' (by simp), endsBlank_append hne hgap,
        findCharsOrComment_stop _ (.inr ⟨rfl, rfl⟩), List.append_nil, List.append_assoc]
    have hrstrip : rstrip (pad ++ (value ++ ((gap ++ ';' :: text) ++ ws))) =
        pad ++ (value ++ (gap ++ ';' :: rstrip (text ++ ws))) := by
      have := rstrip_cons (s := pad ++ (value ++ gap)) (t := text ++ ws) (c := ';') (by decide)
      simpa [List.append_assoc] using this
    rw [hrstrip, hstop]
    exact rstrip_lskip hpad hvalue hgap

/-- A line that the file has, with blanks at its end; on the first line a byte order mark may stand before it. -/
structure IsLine (lineno : ℕ) (prev_name : List Char) (t : IniText) (line : List Char) : Prop where
  skipped : ∃ ws, Blank ws ∧ skipBom lineno line = t.render ++ ws
  marked : prev_name ≠ [] → skipBom lineno line = line

/-- A line is read as it was written.
SOURCE: lib/ff_ini_parser.c:103-163 -/
theorem readItem_render {lineno : ℕ} {t : IniText} (hfits : CanFollow prev_name t)
    (hline : IsLine lineno prev_name t line) : readItem lineno prev_name line = t.item := by
  obtain ⟨ws, hws, hskip⟩ := hline.skipped
  have hmark := hline.marked
  rw [hskip] at hmark
  unfold readItem
  rw [hskip]
  cases hfits with
  | blank =>
    have hstrip : rstrip (IniText.blank.render ++ ws) = [] := by
      rw [rstrip_append hws]
      rfl
    rw [hstrip]
    rfl
  | @comment indent text mark hindent hchar =>
    have hspace : isSpace mark = false := by
      rcases hchar with rfl | rfl <;> rfl
    have hstrip : rstrip ((IniText.comment indent mark text).render ++ ws) =
        indent ++ mark :: rstrip text := by
      rw [rstrip_append hws]
      exact rstrip_cons hspace
    have hstart : lskip (indent ++ mark :: rstrip text) = mark :: rstrip text := by
      rw [lskip_append hindent]
      exact lskip_of_first (by simpa using hspace)
    simp only [hstrip, hstart, if_pos hchar]
    rfl
  | @header indent name rest hindent hname hclose =>
    have hstrip : rstrip ((IniText.header indent name rest).render ++ ws) =
        indent ++ '[' :: (name ++ ']' :: rstrip (rest ++ ws)) := by
      have h1 := rstrip_cons (s := indent ++ '[' :: name) (t := rest ++ ws) (c := ']') (by decide)
      simpa [IniText.render, List.append_assoc] using h1
    have hstart : lskip (indent ++ '[' :: (name ++ ']' :: rstrip (rest ++ ws))) =
        '[' :: (name ++ ']' :: rstrip (rest ++ ws)) := by
      rw [hindent.lskip_eq]
      exact lskip_of_first (by simp; decide)
    have hfind : findCharsOrComment [']'] false (name ++ ']' :: rstrip (rest ++ ws)) =
        (name, ']' :: rstrip (rest ++ ws)) := by
      rw [findCharsOrComment_append _ (by simpa using fun c hc => ne_of_mem_of_not_mem hc hclose) hname (by simp),
        findCharsOrComment_stop _ (.inl (by simp)), List.append_nil]
    simp only [hstrip, hstart, if_neg (hindent.not_more hmark), hfind]
    rfl
  | @entry indent name gap pad value note sep hindent hname hgap hempty hsep hpad hvalue hfree hnote =>
    have hspace : isSpace sep = false := by
      rcases hsep with rfl | rfl <;> rfl
    have hstrip : rstrip ((IniText.entry indent name gap sep pad value note).render ++ ws) =
        indent ++ (name ++ (gap ++ sep :: rstrip (pad ++ (value ++ (note ++ ws))))) := by
      have h1 := rstrip_cons (s := indent ++ (name ++ gap)) (t := pad ++ (value ++ (note ++ ws))) hspace
      simpa [IniText.render, List.append_assoc] using h1
    obtain ⟨c, start, hsame, hfirst, hsemi, hhash, hopen⟩ :=
      hname.start hempty hsep (rstrip (pad ++ (value ++ (note ++ ws))))
    have hskipped : lskip (indent ++ c :: start) = c :: start := by
      rw [hindent.lskip_eq]
      exact lskip_of_first (by simpa using hfirst)
    have hfind := hname.findSep hgap hsep (rstrip (pad ++ (value ++ (note ++ ws))))
    rw [← hsame] at hstrip hfind
    have hname' : rstrip (name ++ gap) = name := by
      rw [rstrip_append hgap, rstrip_of_last hname.trimmed.last]
    simp only [hstrip, hskipped, hsemi, hhash, hopen, or_false, if_false, if_neg (hindent.not_more hmark), hfind,
      if_pos hsep, hname', readValue hpad hvalue hfree hnote hws]
    rfl
  | @more indent value hprev hne hindent hvalue hfirst =>
    obtain ⟨c, hc, hsemi, hhash⟩ := hfirst
    cases value with
    | nil => cases hc
    | cons d value =>
      cases hc
      have hstrip : rstrip ((IniText.more indent (c :: value)).render ++ ws) = indent ++ c :: value := by
        rw [rstrip_append hws]
        exact rstrip_of_last (by simpa [IniText.render, List.getLast?_append, List.getLast?_cons] using hvalue.last)
      have hstart : lskip (indent ++ c :: value) = c :: value := by
        rw [lskip_append hindent]
        exact lskip_of_first hvalue.first
      have hmoved : c :: value ≠ indent ++ c :: value := by
        intro heq
        have hlen := congrArg List.length heq
        rw [List.length_append] at hlen
        exact hne (List.eq_nil_of_length_eq_zero (by omega))
      have hmore : prev_name ≠ [] ∧ ((IniText.more indent (c :: value)).render ++ ws ≠ line ∨
          c :: value ≠ indent ++ c :: value) := ⟨hprev, .inr hmoved⟩
      simp only [hstrip, hstart, hsemi, hhash, or_false, if_false, if_pos hmore]
      rfl

end FStack.Analysis
