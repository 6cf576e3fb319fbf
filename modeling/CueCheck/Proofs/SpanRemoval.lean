import CueCheck.Proofs.FixedEntries
import CueCheck.Proofs.Spans
import Mathlib.Data.List.Forall2

/-!
Complete spans: their removal takes from each line exactly the spans that a scan from the left
finds, and a stripped text keeps the rest and holds no span of the kinds that were removed.
-/

namespace CueCheck

namespace Text

/-- A line and what is left of it without its complete spans: the leftmost opening character that a
closing one follows goes, with all through the first closing one, and so on after that. -/
inductive Cleared (opening closing : Char) : Text → Text → Prop where
  | plain {line : Text} (hnone : ¬ [opening, closing].Sublist line) :
      Cleared opening closing line line
  | span {before inside after rest : Text} (hleft : opening ∉ before) (hfirst : closing ∉ inside)
      (hrest : Cleared opening closing after rest) :
      Cleared opening closing (before ++ opening :: (inside ++ closing :: after)) (before ++ rest)

/-- A text and what is left of it without the complete spans of its lines. -/
def SpansRemoved (opening closing : Char) (t s : Text) : Prop :=
  List.Forall₂ (Cleared opening closing) (lines t) (lines s)

section Removal

variable {opening closing : Char} {line s : Text}

theorem removeSpans_append_of_not_mem {before : Text} (h : opening ∉ before) (t : Text) :
    removeSpans opening closing (before ++ t) = before ++ removeSpans opening closing t := by
  induction before with
  | nil => rfl
  | cons c before ih =>
    rw [List.mem_cons, not_or] at h
    rw [List.cons_append, removeSpans_cons_of_ne (Ne.symm h.1), ih h.2]
    rfl

theorem Cleared.removeSpans_eq (h : Cleared opening closing line s) (hline : '\n' ∉ line) :
    removeSpans opening closing line = s := by
  induction h with
  | plain hnone => exact removeSpans_of_not_sublist hnone
  | @span before inside after rest hleft hfirst hrest ih =>
    have hinside : '\n' ∉ inside := fun hmem => hline (by simp [hmem])
    have hafter : '\n' ∉ after := fun hmem => hline (by simp [hmem])
    rw [removeSpans_append_of_not_mem hleft,
      removeSpans_cons_of_some (afterClosing?_append after hinside hfirst), ih hafter]

theorem Cleared.cons {c : Char} (h : Cleared opening closing line s) (hc : c ≠ opening) :
    Cleared opening closing (c :: line) (c :: s) := by
  cases h with
  | plain hnone =>
    apply Cleared.plain
    rw [pair_sublist_cons, not_or]
    exact ⟨hnone, fun hopen => hc hopen.1.symm⟩
  | @span before inside after rest hleft hfirst hrest =>
    have hleft' : opening ∉ c :: before := by
      rw [List.mem_cons, not_or]
      exact ⟨Ne.symm hc, hleft⟩
    exact Cleared.span hleft' hfirst hrest

theorem cleared_removeSpans (hclosing : closing ≠ '\n') (hline : '\n' ∉ line) :
    Cleared opening closing line (removeSpans opening closing line) := by
  fun_induction removeSpans opening closing line with
  | case1 => exact .plain (by simp)
  | case2 t later hlater ih =>
    obtain ⟨inside, rfl, -, hfirst⟩ := afterClosing?_eq_some hlater
    have hlater' : '\n' ∉ later := fun hmem => hline (by simp [hmem])
    exact Cleared.span List.not_mem_nil hfirst (ih hlater')
  | case3 t hnone ih =>
    -- Nothing closes this character, so that it opens no span and neither does any later one.
    rw [List.mem_cons, not_or] at hline
    rw [afterClosing?_eq_none_iff hclosing (lines_of_not_mem hline.2)] at hnone
    have hrest : ¬ [opening, closing].Sublist t := fun h => hnone (h.subset (by simp))
    rw [removeSpans_of_not_sublist hrest]
    apply Cleared.plain
    rw [pair_sublist_cons, not_or]
    exact ⟨hrest, fun h => hnone h.2⟩
  | case4 c t hc ih =>
    rw [List.mem_cons, not_or] at hline
    exact (ih hline.2).cons hc

theorem map_removeSpans_of_cleared {ls ms : List Text} (hls : ∀ l ∈ ls, '\n' ∉ l)
    (h : List.Forall₂ (Cleared opening closing) ls ms) :
    ls.map (removeSpans opening closing) = ms := by
  induction h with
  | nil => rfl
  | cons hfirst hrest ih =>
    rw [List.forall_mem_cons] at hls
    rw [List.map_cons, hfirst.removeSpans_eq hls.1, ih hls.2]

/-- The scan over the whole text does what the description says line by line. -/
theorem removeSpans_eq_iff (hopening : opening ≠ '\n') (hclosing : closing ≠ '\n') {t : Text} :
    removeSpans opening closing t = s ↔ SpansRemoved opening closing t s := by
  constructor
  · rintro rfl
    rw [SpansRemoved, lines_removeSpans hopening hclosing, List.forall₂_map_right_iff,
      List.forall₂_same]
    intro line hmem
    exact cleared_removeSpans hclosing (newline_not_mem_of_mem_lines hmem)
  · intro h
    have hlines : lines (removeSpans opening closing t) = lines s := by
      rw [lines_removeSpans hopening hclosing]
      exact map_removeSpans_of_cleared (fun l => newline_not_mem_of_mem_lines) h
    rw [← unlines_lines (removeSpans opening closing t), hlines, unlines_lines]

end Removal

/-- Spans of several kinds, each given by its two marks, are removed one kind after the other. -/
inductive RemovedInTurn : List (Char × Char) → Text → Text → Prop where
  | done {t : Text} : RemovedInTurn [] t t
  | pass {opening closing : Char} {marks : List (Char × Char)} {t u s : Text}
      (hpass : SpansRemoved opening closing t u) (hrest : RemovedInTurn marks u s) :
      RemovedInTurn ((opening, closing) :: marks) t s

/-- The text without its spans of several kinds, one kind after the other. -/
def removeMarked (marks : List (Char × Char)) (t : Text) : Text :=
  marks.foldl (fun t mark => t.removeSpans mark.1 mark.2) t

/-- A text and what stripping spans of several kinds makes of it. -/
structure Stripped (marks : List (Char × Char)) (t s : Text) : Prop where
  passes : ∃ u, RemovedInTurn marks t u ∧ s = trim u
  noSpan : ∀ mark ∈ marks, NoSpan mark.1 mark.2 s
  trimmed : (∀ mark ∈ marks, NoSpan mark.1 mark.2 t) → s = trim t

section Marks

variable {marks : List (Char × Char)}

theorem removedInTurn_removeMarked (h : ∀ mark ∈ marks, mark.1 ≠ '\n' ∧ mark.2 ≠ '\n') (t : Text) :
    RemovedInTurn marks t (removeMarked marks t) := by
  induction marks generalizing t with
  | nil => exact .done
  | cons mark marks ih =>
    obtain ⟨⟨hopening, hclosing⟩, hmarks⟩ := List.forall_mem_cons.1 h
    exact .pass ((removeSpans_eq_iff hopening hclosing).1 rfl) (ih hmarks _)

/-- A pass leaves no span of its kind, and later passes make none. -/
theorem noSpan_removeMarked (h : ∀ mark ∈ marks, mark.1 ≠ '\n' ∧ mark.2 ≠ '\n')
    {opening closing : Char} {t : Text}
    (hfree : NoSpan opening closing t ∨ (opening, closing) ∈ marks) :
    NoSpan opening closing (removeMarked marks t) := by
  induction marks generalizing t with
  | nil => exact hfree.resolve_right List.not_mem_nil
  | cons mark marks ih =>
    obtain ⟨⟨hopening, hclosing⟩, hmarks⟩ := List.forall_mem_cons.1 h
    apply ih hmarks
    rcases hfree with hfree | hmem
    · exact .inl (hfree.removeSpans hopening hclosing)
    · rcases List.mem_cons.1 hmem with rfl | hmem
      · exact .inl (noSpan_removeSpans hopening hclosing t)
      · exact .inr hmem

theorem removeMarked_of_noSpan (h : ∀ mark ∈ marks, mark.1 ≠ '\n' ∧ mark.2 ≠ '\n') {t : Text}
    (hfree : ∀ mark ∈ marks, NoSpan mark.1 mark.2 t) : removeMarked marks t = t := by
  induction marks with
  | nil => rfl
  | cons mark marks ih =>
    obtain ⟨⟨hopening, hclosing⟩, hmarks⟩ := List.forall_mem_cons.1 h
    obtain ⟨hfirst, hrest⟩ := List.forall_mem_cons.1 hfree
    rw [removeMarked, List.foldl_cons, hfirst.removeSpans_eq hopening hclosing]
    exact ih hmarks hrest

theorem stripped_trim_removeMarked (h : ∀ mark ∈ marks, mark.1 ≠ '\n' ∧ mark.2 ≠ '\n') (t : Text) :
    Stripped marks t (trim (removeMarked marks t)) := by
  refine ⟨⟨_, removedInTurn_removeMarked h t, rfl⟩, ?_, ?_⟩
  · intro mark hmem
    exact (noSpan_removeMarked h (.inr hmem)).trim
  · intro hfree
    rw [removeMarked_of_noSpan h hfree]

end Marks

end Text

open Text

namespace Fix

/-- The marks around what a fix removes, in the order of its passes. -/
def marks : Fix → List (Char × Char)
  | resolveTiming => []
  | stripAnnotations => [('[', ']'), ('(', ')')]
  | stripMarkup => [('<', '>')]

theorem marks_ne_newline (fix : Fix) : ∀ mark ∈ fix.marks, mark.1 ≠ '\n' ∧ mark.2 ≠ '\n' := by
  cases fix <;> decide

theorem newText_of_destructive {fix : Fix} (h : fix.destructive = true) (t : Text) :
    fix.newText t = trim (removeMarked fix.marks t) := by
  cases fix with
  | resolveTiming => cases h
  | stripAnnotations => rfl
  | stripMarkup => rfl

theorem newStop_of_destructive {fix : Fix} (h : fix.destructive = true) (rules : Rules) (e : Entry)
    (next? : Option Entry) : fix.newStop rules e next? = e.stop := by
  cases fix with
  | resolveTiming => cases h
  | stripAnnotations => rfl
  | stripMarkup => rfl

/-- One pass removes exactly the complete spans, and a fix that removes text strips each subtitle of
the spans of its kinds and changes nothing else. -/
theorem stripped_of_run (rules : Rules) (d : Document) :
    (∀ opening closing : Char, opening ≠ '\n' → closing ≠ '\n' → ∀ t s : Text,
      t.removeSpans opening closing = s ↔ SpansRemoved opening closing t s) ∧
    ∀ fix : Fix, fix.destructive = true → ∀ (i : Nat) (e : Entry), d.entries[i]? = some e →
      e.malformed = false → ∃ text, Stripped fix.marks e.text text ∧
        (fix.run rules d).1.entries[i]? = some { e with text } := by
  constructor
  · intro opening closing hopening hclosing t s
    exact removeSpans_eq_iff hopening hclosing
  · intro fix hfix i e he hm
    refine ⟨fix.newText e.text, ?_, ?_⟩
    · rw [newText_of_destructive hfix]
      exact stripped_trim_removeMarked fix.marks_ne_newline e.text
    · rw [getElem?_run, he, Option.map_some, Entry.fixed_of_subtitle hm,
        newStop_of_destructive hfix]

/-- A subtitle with marks inside other marks, across them, and without counterparts on their
lines. -/
def nested : Entry :=
  { index := 1, start := 1000, stop := 3000,
    text := "([a)] b [c\nd] (e (f) g) [h [i] j".toList }

theorem stripped_of_run_nested :
    ('[' ≠ '\n' ∧ ']' ≠ '\n') ∧ stripAnnotations.destructive = true ∧ nested.malformed = false ∧
      SpansRemoved '[' ']' nested.text "( b [c\nd] (e (f) g)  j".toList ∧
      Stripped stripAnnotations.marks nested.text "( b [c\nd]  g)  j".toList := by
  have hopening : '[' ≠ '\n' := by decide
  have hclosing : ']' ≠ '\n' := by decide
  have hpass : nested.text.removeSpans '[' ']' = "( b [c\nd] (e (f) g)  j".toList := by
    decide +kernel
  have hrun : (stripAnnotations.run {} ⟨[nested], none⟩).1.entries =
      [{ nested with text := "( b [c\nd]  g)  j".toList }] := by decide +kernel
  have h := stripped_of_run {} ⟨[nested], none⟩
  obtain ⟨text, hstripped, htext⟩ := h.2 stripAnnotations rfl 0 nested rfl rfl
  rw [hrun] at htext
  injection htext with htext
  have heq : "( b [c\nd]  g)  j".toList = text := congrArg Entry.text htext
  rw [← heq] at hstripped
  exact ⟨⟨hopening, hclosing⟩, rfl, rfl, (h.1 '[' ']' hopening hclosing _ _).1 hpass, hstripped⟩

end Fix

end CueCheck
