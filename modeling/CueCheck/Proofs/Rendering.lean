import CueCheck.Proofs.DocumentReading
import Mathlib.Data.List.ModifyLast

/-!
Writing a document: the blocks of what is written are those of the subtitles.
-/

namespace CueCheck

open Text

namespace Entry

/-- The subtitle with a text that has no blanks at its end. -/
def trimmedEnd (e : Entry) : Entry := { e with text := e.text.trimEnd }

variable {e : Entry}

theorem Writable.trimmedEnd (h : e.Writable) : e.trimmedEnd.Writable :=
  { h with no_return := fun hc => h.no_return ((trimEnd_sublist _).subset hc) }

theorem renderEntry_eq (e : Entry) :
    Document.renderEntry e = Numeral.ofInt e.index ++ '\n' :: (e.timeLine ++ '\n' :: e.text) := by
  simp [Document.renderEntry, timeLine]

theorem block_eq_of_nil (h : e.text = []) :
    e.block = Numeral.ofInt e.index ++ '\n' :: e.timeLine := by
  rw [block, blockLines, if_pos h, unlines_cons _ (List.cons_ne_nil _ _), unlines_singleton]

theorem block_eq_of_ne_nil (h : e.text ≠ []) :
    e.block = Numeral.ofInt e.index ++ '\n' :: (e.timeLine ++ '\n' :: e.text) := by
  rw [block, blockLines, if_neg h, unlines_cons _ (List.cons_ne_nil _ _),
    unlines_cons _ (lines_ne_nil _), unlines_lines]

/-- A written subtitle is its trimmed block and blanks. -/
theorem renderEntry_eq_block (ht : e.text.NoBlankLine) :
    ∃ ws, (∀ c ∈ ws, isBlank c = true) ∧
      Document.renderEntry e = e.trimmedEnd.block ++ ws := by
  obtain ⟨ws, hws, htext⟩ := eq_trimEnd_append e.text
  by_cases hne : e.text = []
  · refine ⟨['\n'], by simp, ?_⟩
    have hnil : e.trimmedEnd.text = [] := by
      rw [trimmedEnd, hne]
      rfl
    rw [renderEntry_eq, block_eq_of_nil hnil, hne]
    simp only [List.append_assoc, List.cons_append]
    rfl
  · refine ⟨ws, hws, ?_⟩
    rw [renderEntry_eq, block_eq_of_ne_nil (ht.trimEnd_ne_nil hne)]
    simp only [List.append_assoc, List.cons_append]
    rw [trimmedEnd, ← htext]
    rfl

theorem lines_renderEntry (hi : 1 ≤ e.index) :
    lines (Document.renderEntry e) = Numeral.ofInt e.index :: e.timeLine :: e.text.lines := by
  have hindex : '\n' ∉ Numeral.ofInt e.index :=
    newline_not_mem_of_mem_blockLines hi List.mem_cons_self
  have htime : '\n' ∉ e.timeLine :=
    newline_not_mem_of_mem_blockLines hi (List.mem_cons_of_mem _ List.mem_cons_self)
  rw [renderEntry_eq, lines_append, lines_append, lines_of_not_mem hindex, lines_of_not_mem htime]
  rfl

/-- A written subtitle and the blank line after it are a paragraph of their own. -/
theorem paragraphs_renderEntry (h : e.Writable) (ht : e.text.NoBlankLine) (rest : List Text) :
    paragraphs (lines (Document.renderEntry e) ++ [] :: rest) =
      e.blockLines :: paragraphs rest := by
  have hshown : ∀ l ∈ e.blockLines, isBlankLine l = false := fun _ =>
    shown_of_mem_blockLines h.index_pos ht
  have hp (ls : List Text) :
      paragraphs (e.blockLines ++ [] :: ls) = e.blockLines :: paragraphs ls :=
    paragraphs_append (List.cons_ne_nil _ _) hshown isBlankLine_nil ls
  rw [lines_renderEntry h.index_pos]
  by_cases hne : e.text = []
  · rw [← paragraphs_blank_cons isBlankLine_nil rest, ← hp, hne, blockLines, if_pos hne]
    rfl
  · rw [← hp, blockLines, if_neg hne]

theorem return_not_mem_timeLine (e : Entry) : '\r' ∉ e.timeLine := by
  intro hc
  exact absurd (mem_timeLine hc) (by decide)

theorem return_not_mem_renderEntry (h : e.Writable) : '\r' ∉ Document.renderEntry e := by
  intro hc
  rw [renderEntry_eq] at hc
  rcases List.mem_append.1 hc with hc | hc
  · exact absurd (isDigit_of_mem_index h.index_pos hc) (by decide)
  · rcases List.mem_append.1 ((List.mem_cons.1 hc).resolve_left (by decide)) with hc | hc
    · exact return_not_mem_timeLine e hc
    · exact h.no_return ((List.mem_cons.1 hc).resolve_left (by decide))

theorem startsVisible_index (h : e.Writable) : StartsVisible (Numeral.ofInt e.index) :=
  startsVisible_of_forall fun _ hc =>
    Numeral.not_isBlank_of_isDigit (isDigit_of_mem_index h.index_pos hc)

theorem timeLine_ne_nil (e : Entry) : e.timeLine ≠ [] := by
  simp [timeLine]

theorem endsVisible_timeLine (e : Entry) : EndsVisible e.timeLine := by
  have hstop : EndsVisible e.stopText :=
    endsVisible_of_forall fun _ => Timestamp.not_isBlank_of_mem_format
  exact (hstop.cons (Timestamp.format_ne_nil _) _).append (List.cons_ne_nil _ _) _

theorem startsVisible_renderEntry (h : e.Writable) : StartsVisible (Document.renderEntry e) := by
  rw [renderEntry_eq]
  exact (startsVisible_index h).append (ofInt_index_ne_nil h.index_pos) _

/-- The block of a subtitle whose text is trimmed has no blanks at its ends. -/
theorem startsVisible_block (h : e.Writable) : StartsVisible e.block := by
  have hindex := startsVisible_index h
  by_cases hne : e.text = []
  · rw [block_eq_of_nil hne]
    exact hindex.append (ofInt_index_ne_nil h.index_pos) _
  · rw [block_eq_of_ne_nil hne]
    exact hindex.append (ofInt_index_ne_nil h.index_pos) _

theorem endsVisible_block (ht : EndsVisible e.text) : EndsVisible e.block := by
  by_cases hne : e.text = []
  · rw [block_eq_of_nil hne]
    exact ((endsVisible_timeLine e).cons (timeLine_ne_nil e) _).append (List.cons_ne_nil _ _) _
  · have htext := (ht.cons hne '\n').append (List.cons_ne_nil _ _) e.timeLine
    rw [block_eq_of_ne_nil hne]
    exact (htext.cons (by simp) _).append (List.cons_ne_nil _ _) _

theorem block_ne_nil (e : Entry) : e.block ≠ [] := by
  by_cases hne : e.text = []
  · simp [block_eq_of_nil hne]
  · simp [block_eq_of_ne_nil hne]

theorem return_not_mem_block (h : e.Writable) : '\r' ∉ e.block := by
  intro hc
  apply return_not_mem_renderEntry h
  by_cases hne : e.text = []
  · rw [block_eq_of_nil hne] at hc
    rw [renderEntry_eq, ← List.cons_append, ← List.append_assoc]
    exact List.mem_append_left _ hc
  · rwa [block_eq_of_ne_nil hne, ← renderEntry_eq] at hc

end Entry

namespace Document

/-- A file with the given subtitles that ends with the last character of the last one. -/
def renderTight (init : List Entry) (last : Entry) : Text :=
  init.flatMap (fun e => renderEntry e ++ ['\n', '\n']) ++ last.block

variable {init : List Entry} {last : Entry}

theorem renderTight_cons (e : Entry) :
    renderTight (e :: init) last = renderEntry e ++ '\n' :: '\n' :: renderTight init last := by
  simp [renderTight]

/-- Each subtitle is a paragraph, whatever stands in its text. -/
theorem paragraphs_renderTight
    (h : ∀ e ∈ init ++ [last], e.Writable ∧ e.text.NoBlankLine) :
    paragraphs (lines (renderTight init last)) = (init ++ [last]).map Entry.blockLines := by
  induction init with
  | nil =>
    obtain ⟨hw, ht⟩ := h last (by simp)
    change paragraphs (lines last.block) = [last.blockLines]
    rw [Entry.lines_block hw.index_pos]
    exact paragraphs_of_shown (List.cons_ne_nil _ _) fun _ =>
      Entry.shown_of_mem_blockLines hw.index_pos ht
  | cons e init ih =>
    obtain ⟨hw, ht⟩ := h e (by simp)
    rw [renderTight_cons, lines_append, lines, if_pos rfl, Entry.paragraphs_renderEntry hw ht,
      ih fun e he => h e (List.mem_cons_of_mem _ he)]
    rfl

theorem startsVisible_renderTight (h : ∀ e ∈ init ++ [last], e.Writable) :
    StartsVisible (renderTight init last) := by
  cases init with
  | nil => exact Entry.startsVisible_block (h last (by simp))
  | cons e init =>
    have hw := h e (by simp)
    rw [renderTight_cons]
    exact (Entry.startsVisible_renderEntry hw).append (by simp [renderEntry]) _

theorem return_not_mem_renderTight (h : ∀ e ∈ init ++ [last], e.Writable) :
    '\r' ∉ renderTight init last := by
  intro hc
  rcases List.mem_append.1 hc with hc | hc
  · obtain ⟨e, he, hc⟩ := List.mem_flatMap.1 hc
    have hr := Entry.return_not_mem_renderEntry (h e (List.mem_append_left _ he))
    simp [hr] at hc
  · exact Entry.return_not_mem_block (h last (by simp)) hc

theorem intercalate_append {α : Type} (sep : List α) {ls : List (List α)} (h : ls ≠ []) :
    sep.intercalate ls ++ sep = ls.flatMap (· ++ sep) := by
  induction ls with
  | nil => exact absurd rfl h
  | cons l ls ih =>
    by_cases hls : ls = []
    · simp [hls]
    · rw [List.intercalate_cons_of_ne_nil hls, List.flatMap_cons, ← ih hls, List.append_assoc]

variable {d : Document}

/-- A written document is its tight form and blanks. -/
theorem render_eq (hd : d.subtitles = init ++ [last]) (ht : last.text.NoBlankLine) :
    ∃ ws, (∀ c ∈ ws, isBlank c = true) ∧ d.render = renderTight init last.trimmedEnd ++ ws := by
  obtain ⟨ws, hws, hlast⟩ := Entry.renderEntry_eq_block ht
  refine ⟨ws ++ ['\n', '\n'], ?_, ?_⟩
  · intro c hc
    rcases List.mem_append.1 hc with hc | hc
    · exact hws c hc
    · have hn : c = '\n' := by simpa using hc
      rw [hn]
      rfl
  · rw [render, intercalate_append _ (by simp [hd]), hd, renderTight]
    simp [List.flatMap_map, hlast]

/-- The blocks of a written document are those of its subtitles. -/
theorem split_render (h : ∀ e ∈ d.subtitles, e.Writable ∧ e.text.NoBlankLine) :
    Block.split d.render = (d.subtitles.modifyLast Entry.trimmedEnd).map Entry.block := by
  rcases List.eq_nil_or_concat' d.subtitles with hd | ⟨init, last, hd⟩
  · have hr : d.render = ['\n', '\n'] := by
      rw [render, hd]
      rfl
    have htrim : trim ['\n', '\n'] = [] := trim_of_blank (by simp)
    rw [hr, hd, Block.split, htrim]
    rfl
  · rw [hd] at h
    obtain ⟨hw, ht⟩ := h last (by simp)
    obtain ⟨ws, hws, hr⟩ := render_eq hd ht
    have htight : ∀ e ∈ init ++ [last.trimmedEnd], e.Writable ∧ e.text.NoBlankLine := by
      intro e he
      rcases List.mem_append.1 he with he | he
      · exact h e (List.mem_append_left _ he)
      · rw [List.mem_singleton.1 he]
        exact ⟨hw.trimmedEnd, ht.trimEnd⟩
    have hwrit := fun e he => (htight e he).1
    have hends : EndsVisible (renderTight init last.trimmedEnd) :=
      (Entry.endsVisible_block (endsVisible_trimEnd last.text)).append (Entry.block_ne_nil _) _
    have hne : renderTight init last.trimmedEnd ≠ [] := by
      simp [renderTight, Entry.block_ne_nil]
    have hreturn : (renderTight init last.trimmedEnd).without '\r' =
        renderTight init last.trimmedEnd :=
      List.filter_eq_self.2 fun c hc => by
        simpa using fun hcr : c = '\r' => return_not_mem_renderTight hwrit (hcr ▸ hc)
    rw [Block.split_eq_paragraphs, hr,
      trim_append hne (startsVisible_renderTight hwrit) hends hws, hreturn,
      paragraphs_renderTight htight, hd, List.modifyLast_concat, List.map_map]
    rfl

end Document

end CueCheck
