import CueCheck.Proofs.Passes

/-!
Spans: their removal goes line by line and leaves none, and a text without spans keeps free of them
when parts of it are removed.
-/

namespace CueCheck.Text

/-- No line has an opening character with a closing one after it. -/
def NoSpan (opening closing : Char) (t : Text) : Prop :=
  ∀ line ∈ lines t, ¬ [opening, closing].Sublist line

theorem pair_sublist_cons {opening closing c : Char} {t : Text} :
    [opening, closing].Sublist (c :: t) ↔
      [opening, closing].Sublist t ∨ opening = c ∧ closing ∈ t := by
  rw [List.cons_sublist_cons', List.singleton_sublist]

section Lines

theorem lines_cons_of_ne {c : Char} (hc : c ≠ '\n') (t : Text) :
    lines (c :: t) = consLine c (lines t) := by
  rw [lines, if_neg hc]

theorem lines_append_of_not_mem {before : Text} (h : '\n' ∉ before) {t first : Text}
    {rest : List Text} (ht : lines t = first :: rest) :
    lines (before ++ t) = (before ++ first) :: rest := by
  induction before with
  | nil => exact ht
  | cons c before ih =>
    rw [List.mem_cons, not_or] at h
    rw [List.cons_append, lines_cons_of_ne (Ne.symm h.1), ih h.2]
    rfl

/-- Where two texts are put together, the last line of the one joins the first of the other. -/
theorem lines_append_eq (s t : Text) :
    ∃ init last first rest, lines s = init ++ [last] ∧ lines t = first :: rest ∧
      lines (s ++ t) = init ++ (last ++ first) :: rest := by
  induction s with
  | nil =>
    obtain ⟨first, rest, ht⟩ := exists_lines_eq_cons t
    exact ⟨[], [], first, rest, rfl, ht, ht⟩
  | cons c s ih =>
    obtain ⟨init, last, first, rest, hs, ht, hst⟩ := ih
    rw [List.cons_append, lines, lines, hs, hst]
    by_cases hc : c = '\n'
    · rw [if_pos hc, if_pos hc]
      exact ⟨[] :: init, last, first, rest, rfl, ht, rfl⟩
    · rw [if_neg hc, if_neg hc]
      cases init with
      | nil => exact ⟨[], c :: last, first, rest, rfl, ht, rfl⟩
      | cons line init => exact ⟨(c :: line) :: init, last, first, rest, rfl, ht, rfl⟩

theorem exists_line_of_append_left {s line : Text} (t : Text) (h : line ∈ lines s) :
    ∃ other ∈ lines (s ++ t), line.Sublist other := by
  obtain ⟨init, last, first, rest, hs, -, hst⟩ := lines_append_eq s t
  rw [hs] at h
  rw [hst]
  rcases List.mem_append.1 h with h | h
  · exact ⟨line, List.mem_append_left _ h, List.Sublist.refl _⟩
  · rw [List.mem_singleton.1 h]
    exact ⟨last ++ first, by simp, List.sublist_append_left _ _⟩

theorem exists_line_of_append_right {t line : Text} (s : Text) (h : line ∈ lines t) :
    ∃ other ∈ lines (s ++ t), line.Sublist other := by
  obtain ⟨init, last, first, rest, -, ht, hst⟩ := lines_append_eq s t
  rw [ht] at h
  rw [hst]
  rcases List.mem_cons.1 h with rfl | h
  · exact ⟨last ++ line, by simp, List.sublist_append_right _ _⟩
  · exact ⟨line, by simp [h], List.Sublist.refl _⟩

end Lines

section Removal

variable {opening closing : Char} {t : Text}

theorem afterClosing?_eq_some {later : Text} (h : afterClosing? closing t = some later) :
    ∃ inside, t = inside ++ closing :: later ∧ '\n' ∉ inside ∧ closing ∉ inside := by
  induction t with
  | nil => cases h
  | cons c t ih =>
    rw [afterClosing?] at h
    split at h
    · next hc =>
      injection h with h
      exact ⟨[], by rw [hc, h]; rfl, List.not_mem_nil, List.not_mem_nil⟩
    · next hc =>
      split at h
      · cases h
      · next hn =>
        obtain ⟨inside, rfl, hline, hfirst⟩ := ih h
        refine ⟨c :: inside, rfl, ?_, ?_⟩
        · exact fun hmem => (List.mem_cons.1 hmem).elim (Ne.symm hn) hline
        · exact fun hmem => (List.mem_cons.1 hmem).elim (Ne.symm hc) hfirst

theorem afterClosing?_append {inside : Text} (later : Text) (hline : '\n' ∉ inside)
    (hfirst : closing ∉ inside) :
    afterClosing? closing (inside ++ closing :: later) = some later := by
  induction inside with
  | nil => rw [List.nil_append, afterClosing?, if_pos rfl]
  | cons c inside ih =>
    rw [List.mem_cons, not_or] at hline hfirst
    rw [List.cons_append, afterClosing?, if_neg (Ne.symm hfirst.1), if_neg (Ne.symm hline.1)]
    exact ih hline.2 hfirst.2

/-- Only the first line is searched for the closing character. -/
theorem afterClosing?_eq_none_iff (hclosing : closing ≠ '\n') {first : Text} {rest : List Text}
    (ht : lines t = first :: rest) : afterClosing? closing t = none ↔ closing ∉ first := by
  induction t generalizing first rest with
  | nil =>
    injection ht with hfirst
    simp [afterClosing?, ← hfirst]
  | cons c t ih =>
    by_cases hn : c = '\n'
    · rw [lines, if_pos hn] at ht
      injection ht with hfirst
      rw [afterClosing?, if_neg (by rw [hn]; exact Ne.symm hclosing), if_pos hn, ← hfirst]
      simp
    · obtain ⟨first', rest', ht'⟩ := exists_lines_eq_cons t
      rw [lines_cons_of_ne hn, ht'] at ht
      injection ht with hfirst
      rw [← hfirst, List.mem_cons, not_or, afterClosing?]
      by_cases hc : c = closing
      · simp [hc]
      · rw [if_neg hc, if_neg hn, ih ht']
        exact (and_iff_right (Ne.symm hc)).symm

theorem removeSpans_nil : removeSpans opening closing [] = [] := by
  rw [removeSpans]

theorem removeSpans_cons_of_some {later : Text} (h : afterClosing? closing t = some later) :
    removeSpans opening closing (opening :: t) = removeSpans opening closing later := by
  rw [removeSpans, if_pos rfl]
  split
  · next other hother =>
    rw [h] at hother
    injection hother with hother
    rw [hother]
  · next hnone =>
    rw [h] at hnone
    cases hnone

theorem removeSpans_cons_of_none (h : afterClosing? closing t = none) :
    removeSpans opening closing (opening :: t) = opening :: removeSpans opening closing t := by
  rw [removeSpans, if_pos rfl]
  split
  · next other hother =>
    rw [h] at hother
    cases hother
  · rfl

theorem removeSpans_cons_of_ne {c : Char} (hc : c ≠ opening) :
    removeSpans opening closing (c :: t) = c :: removeSpans opening closing t := by
  rw [removeSpans, if_neg hc]

theorem lines_removeSpans (hopening : opening ≠ '\n') (hclosing : closing ≠ '\n') (t : Text) :
    lines (removeSpans opening closing t) = (lines t).map (removeSpans opening closing) := by
  fun_induction removeSpans opening closing t with
  | case1 => rw [lines, List.map_singleton, removeSpans_nil]
  | case2 t later hlater ih =>
    obtain ⟨inside, rfl, hline, hfirst⟩ := afterClosing?_eq_some hlater
    obtain ⟨first, rest, hlines⟩ := exists_lines_eq_cons later
    -- The span lies in the first line, so the lines after the first are those after the span.
    have hspan : '\n' ∉ opening :: (inside ++ [closing]) := by
      simp [Ne.symm hopening, Ne.symm hclosing, hline]
    have hall := lines_append_of_not_mem hspan hlines
    simp only [List.cons_append, List.append_assoc, List.nil_append] at hall
    rw [ih, hlines, hall, List.map_cons, List.map_cons,
      removeSpans_cons_of_some (afterClosing?_append first hline hfirst)]
  | case3 t hnone ih =>
    obtain ⟨first, rest, hlines⟩ := exists_lines_eq_cons t
    have hopen : afterClosing? closing first = none := by
      have hfirst := newline_not_mem_of_mem_lines (hlines ▸ List.mem_cons_self)
      rw [afterClosing?_eq_none_iff hclosing (lines_of_not_mem hfirst)]
      exact (afterClosing?_eq_none_iff hclosing hlines).1 hnone
    rw [lines_cons_of_ne hopening, lines_cons_of_ne hopening, ih, hlines]
    rw [consLine, List.map_cons, List.map_cons, removeSpans_cons_of_none hopen]
    rfl
  | case4 c t hc ih =>
    by_cases hn : c = '\n'
    · rw [lines, if_pos hn, lines, if_pos hn, ih, List.map_cons, removeSpans_nil]
    · obtain ⟨first, rest, hlines⟩ := exists_lines_eq_cons t
      rw [lines_cons_of_ne hn, lines_cons_of_ne hn, ih, hlines]
      rw [consLine, List.map_cons, List.map_cons, removeSpans_cons_of_ne hc]
      rfl

theorem not_sublist_removeSpans (hclosing : closing ≠ '\n') (hline : '\n' ∉ t) :
    ¬ [opening, closing].Sublist (removeSpans opening closing t) := by
  fun_induction removeSpans opening closing t with
  | case1 => simp
  | case2 t later hlater ih =>
    exact ih fun hn => hline (List.mem_cons_of_mem _ ((afterClosing?_sublist hlater).subset hn))
  | case3 t hnone ih =>
    rw [List.mem_cons, not_or] at hline
    rw [afterClosing?_eq_none_iff hclosing (lines_of_not_mem hline.2)] at hnone
    rw [pair_sublist_cons, not_or]
    exact ⟨ih hline.2, fun h => hnone ((removeSpans_sublist _ _ _).subset h.2)⟩
  | case4 c t hc ih =>
    rw [List.mem_cons, not_or] at hline
    rw [pair_sublist_cons, not_or]
    exact ⟨ih hline.2, fun h => hc h.1.symm⟩

theorem removeSpans_of_not_sublist (h : ¬ [opening, closing].Sublist t) :
    removeSpans opening closing t = t := by
  fun_induction removeSpans opening closing t with
  | case1 => rfl
  | case2 t later hlater ih =>
    obtain ⟨inside, rfl, -, -⟩ := afterClosing?_eq_some hlater
    exact absurd (pair_sublist_cons.2 (.inr ⟨rfl, by simp⟩)) h
  | case3 t hnone ih =>
    rw [pair_sublist_cons, not_or] at h
    rw [ih h.1]
  | case4 c t hc ih =>
    rw [pair_sublist_cons, not_or] at h
    rw [ih h.1]

theorem noSpan_removeSpans (hopening : opening ≠ '\n') (hclosing : closing ≠ '\n') (t : Text) :
    NoSpan opening closing (removeSpans opening closing t) := by
  intro line hmem
  rw [lines_removeSpans hopening hclosing] at hmem
  obtain ⟨original, horiginal, rfl⟩ := List.mem_map.1 hmem
  exact not_sublist_removeSpans hclosing (newline_not_mem_of_mem_lines horiginal)

theorem NoSpan.removeSpans_eq (h : NoSpan opening closing t) (hopening : opening ≠ '\n')
    (hclosing : closing ≠ '\n') : removeSpans opening closing t = t := by
  have hlines : lines (removeSpans opening closing t) = lines t := by
    rw [lines_removeSpans hopening hclosing]
    conv_rhs => rw [← List.map_id (lines t)]
    exact List.map_congr_left fun line hmem => removeSpans_of_not_sublist (h line hmem)
  rw [← unlines_lines (removeSpans opening closing t), hlines, unlines_lines]

/-- The removal of other spans makes no new ones. -/
theorem NoSpan.removeSpans (h : NoSpan opening closing t) {o c : Char} (ho : o ≠ '\n')
    (hc : c ≠ '\n') : NoSpan opening closing (Text.removeSpans o c t) := by
  intro line hmem hspan
  rw [lines_removeSpans ho hc] at hmem
  obtain ⟨original, horiginal, rfl⟩ := List.mem_map.1 hmem
  exact h original horiginal (hspan.trans (removeSpans_sublist _ _ _))

theorem NoSpan.of_append_left {s : Text} (h : NoSpan opening closing (s ++ t)) :
    NoSpan opening closing s := by
  intro line hmem hspan
  obtain ⟨other, hother, hsub⟩ := exists_line_of_append_left t hmem
  exact h other hother (hspan.trans hsub)

theorem NoSpan.of_append_right {s : Text} (h : NoSpan opening closing (s ++ t)) :
    NoSpan opening closing t := by
  intro line hmem hspan
  obtain ⟨other, hother, hsub⟩ := exists_line_of_append_right s hmem
  exact h other hother (hspan.trans hsub)

theorem NoSpan.trim (h : NoSpan opening closing t) : NoSpan opening closing (trim t) := by
  rw [← List.takeWhile_append_dropWhile (p := isBlank) (l := t)] at h
  have hstart : NoSpan opening closing (trimStart t) := h.of_append_right
  obtain ⟨ws, -, ht⟩ := eq_trimEnd_append (trimStart t)
  rw [ht] at hstart
  exact hstart.of_append_left

end Removal

theorem trim_trim (t : Text) : trim (trim t) = trim t := by
  rw [trim, (startsVisible_trim t).trimStart_eq, (endsVisible_trim t).trimEnd_eq]

end CueCheck.Text

namespace CueCheck.Entry

open Text

/-- A text without annotations, and with nothing left to trim. -/
structure AnnotationFree (t : Text) : Prop where
  square : NoSpan '[' ']' t
  round : NoSpan '(' ')' t
  trimmed : trim t = t

/-- A text without markup, and with nothing left to trim. -/
structure MarkupFree (t : Text) : Prop where
  angle : NoSpan '<' '>' t
  trimmed : trim t = t

variable {t : Text}

theorem annotationFree_withoutAnnotations (t : Text) : AnnotationFree (withoutAnnotations t) := by
  constructor
  · exact ((noSpan_removeSpans (by decide) (by decide) t).removeSpans (by decide) (by decide)).trim
  · exact (noSpan_removeSpans (by decide) (by decide) _).trim
  · exact trim_trim _

theorem AnnotationFree.withoutAnnotations_eq (h : AnnotationFree t) :
    withoutAnnotations t = t := by
  rw [withoutAnnotations, h.square.removeSpans_eq (by decide) (by decide),
    h.round.removeSpans_eq (by decide) (by decide), h.trimmed]

theorem AnnotationFree.withoutMarkup (h : AnnotationFree t) :
    AnnotationFree (withoutMarkup t) := by
  constructor
  · exact (h.square.removeSpans (by decide) (by decide)).trim
  · exact (h.round.removeSpans (by decide) (by decide)).trim
  · exact trim_trim _

theorem markupFree_withoutMarkup (t : Text) : MarkupFree (withoutMarkup t) := by
  constructor
  · exact (noSpan_removeSpans (by decide) (by decide) _).trim
  · exact trim_trim _

theorem MarkupFree.withoutMarkup_eq (h : MarkupFree t) : withoutMarkup t = t := by
  rw [withoutMarkup, h.angle.removeSpans_eq (by decide) (by decide), h.trimmed]

theorem MarkupFree.withoutAnnotations (h : MarkupFree t) :
    MarkupFree (withoutAnnotations t) := by
  constructor
  · exact ((h.angle.removeSpans (by decide) (by decide)).removeSpans (by decide) (by decide)).trim
  · exact trim_trim _

theorem withoutAnnotations_eq_self_iff : withoutAnnotations t = t ↔ AnnotationFree t :=
  ⟨fun h => h ▸ annotationFree_withoutAnnotations t, AnnotationFree.withoutAnnotations_eq⟩

theorem withoutMarkup_eq_self_iff : withoutMarkup t = t ↔ MarkupFree t :=
  ⟨fun h => h ▸ markupFree_withoutMarkup t, MarkupFree.withoutMarkup_eq⟩

end CueCheck.Entry
