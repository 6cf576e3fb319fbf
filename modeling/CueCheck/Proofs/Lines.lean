import CueCheck.Text.Blank
import Mathlib.Data.List.Basic

/-!
Lines and blank ends of a text: cutting at newlines and joining with them undo each other, and
trimming takes exactly the blanks at the ends.
-/

namespace CueCheck.Text

theorem consLine_eq_modifyHead {ls : List Text} (c : Char) (h : ls ≠ []) :
    consLine c ls = ls.modifyHead (c :: ·) := by
  cases ls with
  | nil => exact absurd rfl h
  | cons line rest => rfl

theorem lines_eq_splitOn (t : Text) : lines t = t.splitOn '\n' := by
  induction t with
  | nil => rfl
  | cons c t ih =>
    rw [List.splitOn_cons_eq_if_modifyHead, lines, ih]
    by_cases hc : c = '\n'
    · simp [hc]
    · simp [hc, consLine_eq_modifyHead]

theorem unlines_lines (t : Text) : unlines (lines t) = t := by
  rw [lines_eq_splitOn, unlines, List.intercalate_splitOn]

theorem lines_unlines {ls : List Text} (hne : ls ≠ []) (h : ∀ l ∈ ls, '\n' ∉ l) :
    lines (unlines ls) = ls := by
  rw [lines_eq_splitOn, unlines, List.splitOn_intercalate _ h hne]

theorem lines_of_not_mem {t : Text} (h : '\n' ∉ t) : lines t = [t] := by
  rw [lines_eq_splitOn, List.splitOn_eq_singleton h]

theorem lines_append (a b : Text) : lines (a ++ '\n' :: b) = lines a ++ lines b := by
  simp only [lines_eq_splitOn]
  exact List.splitOn_append_cons_self a b

theorem exists_lines_eq_cons (t : Text) : ∃ first rest, lines t = first :: rest :=
  List.exists_cons_of_ne_nil (lines_ne_nil t)

theorem newline_not_mem_of_mem_lines {t l : Text} (h : l ∈ lines t) : '\n' ∉ l := by
  induction t generalizing l with
  | nil =>
    rw [lines, List.mem_singleton] at h
    simp [h]
  | cons c t ih =>
    rw [lines] at h
    split at h
    · rcases List.mem_cons.1 h with rfl | h
      · exact List.not_mem_nil
      · exact ih h
    · next hc =>
      obtain ⟨first, rest, ht⟩ := exists_lines_eq_cons t
      rw [ht] at ih h
      rcases List.mem_cons.1 h with rfl | h
      · intro hmem
        rcases List.mem_cons.1 hmem with hn | hmem
        · exact hc hn.symm
        · exact ih List.mem_cons_self hmem
      · exact ih (List.mem_cons_of_mem _ h)

@[simp] theorem unlines_singleton (l : Text) : unlines [l] = l := List.intercalate_singleton

theorem unlines_cons (l : Text) {ls : List Text} (h : ls ≠ []) :
    unlines (l :: ls) = l ++ '\n' :: unlines ls := by
  rw [unlines, List.intercalate_cons_of_ne_nil h, unlines]
  simp

theorem unlines_consLine (c : Char) (l : Text) (ls : List Text) :
    unlines ((c :: l) :: ls) = c :: unlines (l :: ls) := by
  cases ls with
  | nil => simp
  | cons m ms => simp [unlines_cons]

/-- Leaving out lines leaves a part of the text. -/
theorem unlines_sublist {ls ms : List Text} (h : ls.Sublist ms) :
    (unlines ls).Sublist (unlines ms) := by
  induction h with
  | slnil => exact List.Sublist.refl _
  | @cons ls ms l h ih =>
    by_cases hm : ms = []
    · subst hm
      rw [List.sublist_nil.1 h]
      exact List.nil_sublist _
    · rw [unlines_cons l hm]
      exact ih.trans ((List.sublist_cons_self _ _).trans (List.sublist_append_right _ _))
  | @cons_cons ls ms l h ih =>
    by_cases hl : ls = []
    · subst hl
      by_cases hm : ms = []
      · simp only [hm]
        exact List.Sublist.refl _
      · rw [unlines_singleton, unlines_cons l hm]
        exact List.sublist_append_left _ _
    · have hm : ms ≠ [] := fun hm => hl (List.sublist_nil.1 (hm ▸ h))
      rw [unlines_cons l hl, unlines_cons l hm]
      exact (List.Sublist.refl l).append (ih.cons_cons _)

@[simp] theorem isBlankLine_nil : isBlankLine [] = true := rfl

theorem isBlankLine_eq_false_iff {l : Text} :
    isBlankLine l = false ↔ ∃ c ∈ l, isBlank c = false := by
  simp [isBlankLine]

/-- The text is empty or its first character shows. -/
def StartsVisible (t : Text) : Prop := ∀ c ∈ t.head?, isBlank c = false

/-- The text is empty or its last character shows. -/
def EndsVisible (t : Text) : Prop := ∀ c ∈ t.getLast?, isBlank c = false

theorem endsVisible_iff {t : Text} : EndsVisible t ↔ StartsVisible t.reverse := by
  rw [EndsVisible, StartsVisible, List.head?_reverse]

theorem startsVisible_trimStart (t : Text) : StartsVisible (trimStart t) := by
  intro c hc
  have h := List.head?_dropWhile_not isBlank t
  rw [trimStart] at hc
  rw [Option.mem_def.1 hc] at h
  exact h

theorem endsVisible_trimEnd (t : Text) : EndsVisible (trimEnd t) := by
  rw [endsVisible_iff, trimEnd, List.reverse_reverse]
  exact startsVisible_trimStart t.reverse

theorem StartsVisible.trimStart_eq {t : Text} (h : StartsVisible t) : trimStart t = t := by
  cases t with
  | nil => rfl
  | cons c t => exact List.dropWhile_cons_of_neg (by simp [h c rfl])

theorem EndsVisible.trimEnd_eq {t : Text} (h : EndsVisible t) : trimEnd t = t := by
  rw [trimEnd, ← trimStart, (endsVisible_iff.1 h).trimStart_eq, List.reverse_reverse]

theorem EndsVisible.of_append (ws : Text) {t : Text} (he : EndsVisible (ws ++ t)) :
    EndsVisible t := by
  intro c hc
  apply he c
  rw [List.getLast?_append, Option.mem_def.1 hc]
  rfl

theorem EndsVisible.append {t : Text} (h : EndsVisible t) (hne : t ≠ []) (ws : Text) :
    EndsVisible (ws ++ t) := by
  intro c hc
  rw [List.getLast?_append, List.getLast?_eq_some_getLast hne] at hc
  exact h c (by rw [List.getLast?_eq_some_getLast hne]; exact hc)

theorem EndsVisible.cons {t : Text} (h : EndsVisible t) (hne : t ≠ []) (c : Char) :
    EndsVisible (c :: t) := h.append hne [c]

theorem StartsVisible.append {t : Text} (h : StartsVisible t) (hne : t ≠ []) (ws : Text) :
    StartsVisible (t ++ ws) := by
  intro c hc
  rw [List.head?_append, List.head?_eq_some_head hne] at hc
  exact h c (by rw [List.head?_eq_some_head hne]; exact hc)

theorem startsVisible_of_forall {t : Text} (h : ∀ c ∈ t, isBlank c = false) :
    StartsVisible t := fun c hc => h c (List.mem_of_mem_head? hc)

theorem endsVisible_of_forall {t : Text} (h : ∀ c ∈ t, isBlank c = false) :
    EndsVisible t := fun c hc => h c (List.mem_of_getLast? hc)

theorem StartsVisible.without {t : Text} (h : StartsVisible t) {d : Char}
    (hd : isBlank d = true) : StartsVisible (t.without d) := by
  cases t with
  | nil => exact h
  | cons c t =>
    have hc : c ≠ d := by
      rintro rfl
      exact Bool.false_ne_true ((h c rfl).symm.trans hd)
    rw [Text.without, List.filter_cons_of_pos (by simpa using hc)]
    intro e he
    exact h e he

theorem EndsVisible.without {t : Text} (h : EndsVisible t) {d : Char}
    (hd : isBlank d = true) : EndsVisible (t.without d) := by
  rw [endsVisible_iff] at h ⊢
  rw [Text.without, ← List.filter_reverse]
  exact h.without hd

theorem trimEnd_append {t ws : Text} (h : ∀ c ∈ ws, isBlank c = true) :
    trimEnd (t ++ ws) = trimEnd t := by
  rw [trimEnd, List.reverse_append, List.dropWhile_append_of_pos, ← trimEnd]
  intro c hc
  exact h c (List.mem_reverse.1 hc)

/-- Trimming an end takes blanks only. -/
theorem eq_trimEnd_append (t : Text) :
    ∃ ws, (∀ c ∈ ws, isBlank c = true) ∧ t = trimEnd t ++ ws := by
  refine ⟨(t.reverse.takeWhile isBlank).reverse, ?_, ?_⟩
  · intro c hc
    exact List.all_eq_true.1 (List.all_takeWhile (p := isBlank)) c (List.mem_reverse.1 hc)
  · rw [trimEnd, ← List.reverse_append, List.takeWhile_append_dropWhile, List.reverse_reverse]

theorem trimEnd_sublist (t : Text) : (trimEnd t).Sublist t := by
  obtain ⟨ws, -, ht⟩ := eq_trimEnd_append t
  have h := List.sublist_append_left (trimEnd t) ws
  rwa [← ht] at h

theorem trim_sublist (t : Text) : (trim t).Sublist t :=
  (trimEnd_sublist _).trans (List.dropWhile_sublist _)

theorem endsVisible_trim (t : Text) : EndsVisible (trim t) := endsVisible_trimEnd _

theorem startsVisible_trim (t : Text) : StartsVisible (trim t) := by
  obtain ⟨ws, -, ht⟩ := eq_trimEnd_append (trimStart t)
  intro c hc
  apply startsVisible_trimStart t c
  rw [trim] at hc
  rw [ht, List.head?_append, Option.mem_def.1 hc]
  rfl

/-- Only the blanks at the end of a text that starts with no blank are trimmed. -/
theorem trim_append {t ws : Text} (hne : t ≠ []) (hs : StartsVisible t) (he : EndsVisible t)
    (hw : ∀ c ∈ ws, isBlank c = true) : trim (t ++ ws) = t := by
  rw [trim, (hs.append hne ws).trimStart_eq, trimEnd_append hw, he.trimEnd_eq]

theorem trim_of_blank {t : Text} (h : ∀ c ∈ t, isBlank c = true) : trim t = [] := by
  have hd : t.dropWhile isBlank = [] := by
    rw [← List.append_nil t, List.dropWhile_append_of_pos h, List.dropWhile_nil]
  rw [trim, trimStart, hd]
  rfl

/-- No line is blank, or there is no line at all. -/
def NoBlankLine (t : Text) : Prop := t = [] ∨ ∀ line ∈ lines t, isBlankLine line = false

instance (t : Text) : Decidable (NoBlankLine t) :=
  inferInstanceAs (Decidable (_ ∨ ∀ line ∈ lines t, isBlankLine line = false))

theorem unlines_concat (ls : List Text) (l : Text) :
    unlines (ls ++ [l]) = ls.flatMap (· ++ ['\n']) ++ l := by
  induction ls with
  | nil => simp
  | cons m ls ih =>
    rw [List.cons_append, unlines_cons m (by simp), ih]
    simp

theorem trimEnd_append_of_shown {a b : Text} (hb : isBlankLine b = false) :
    trimEnd (a ++ b) = a ++ trimEnd b := by
  obtain ⟨c, hc, hcb⟩ := isBlankLine_eq_false_iff.1 hb
  have hne : b.reverse.dropWhile isBlank ≠ [] := by
    intro hnil
    have hrun := List.takeWhile_append_dropWhile (p := isBlank) (l := b.reverse)
    rw [hnil, List.append_nil] at hrun
    have hall := List.all_takeWhile (p := isBlank) (l := b.reverse)
    rw [hrun, List.all_eq_true] at hall
    rw [hall c (List.mem_reverse.2 hc)] at hcb
    cases hcb
  rw [trimEnd, List.reverse_append, List.dropWhile_append, if_neg (by simpa using hne),
    List.reverse_append, List.reverse_reverse, trimEnd]

theorem isBlankLine_trimEnd {l : Text} (h : isBlankLine l = false) :
    isBlankLine (trimEnd l) = false := by
  obtain ⟨ws, hws, hl⟩ := eq_trimEnd_append l
  obtain ⟨c, hc, hcb⟩ := isBlankLine_eq_false_iff.1 h
  rw [hl] at hc
  rcases List.mem_append.1 hc with hc | hc
  · exact isBlankLine_eq_false_iff.2 ⟨c, hc, hcb⟩
  · rw [hws c hc] at hcb
    cases hcb

/-- Trimming the end of a text trims the end of its last line. -/
theorem lines_trimEnd {t last : Text} {init : List Text} (hl : lines t = init ++ [last])
    (hlast : isBlankLine last = false) : lines (trimEnd t) = init ++ [trimEnd last] := by
  have ht := unlines_lines t
  rw [hl, unlines_concat] at ht
  rw [← ht, trimEnd_append_of_shown hlast, ← unlines_concat, lines_unlines (by simp)]
  intro l hmem
  rcases List.mem_append.1 hmem with hmem | hmem
  · exact newline_not_mem_of_mem_lines (hl ▸ List.mem_append_left _ hmem)
  · rw [List.mem_singleton.1 hmem]
    intro hc
    have hsub := (trimEnd_sublist last).subset hc
    exact newline_not_mem_of_mem_lines (t := t) (by rw [hl]; simp) hsub

theorem NoBlankLine.trimEnd {t : Text} (h : NoBlankLine t) : NoBlankLine (trimEnd t) := by
  rcases h with rfl | h
  · exact .inl rfl
  · obtain ⟨init, last, hl⟩ := (List.eq_nil_or_concat' (lines t)).resolve_left (lines_ne_nil t)
    have hlast := h last (by rw [hl]; simp)
    refine .inr ?_
    rw [lines_trimEnd hl hlast]
    intro l hmem
    rcases List.mem_append.1 hmem with hmem | hmem
    · exact h l (by rw [hl]; exact List.mem_append_left _ hmem)
    · rw [List.mem_singleton.1 hmem]
      exact isBlankLine_trimEnd hlast

theorem NoBlankLine.trimEnd_ne_nil {t : Text} (h : NoBlankLine t) (hne : t ≠ []) :
    Text.trimEnd t ≠ [] := by
  obtain ⟨init, last, hl⟩ := (List.eq_nil_or_concat' (lines t)).resolve_left (lines_ne_nil t)
  have hlast := h.resolve_left hne last (by rw [hl]; simp)
  intro hnil
  have hlt := lines_trimEnd hl hlast
  have hshown := isBlankLine_trimEnd hlast
  have hmem : last.trimEnd ∈ lines [] := by
    rw [hnil] at hlt
    simp [hlt]
  rw [lines, List.mem_singleton] at hmem
  rw [hmem] at hshown
  cases hshown

end CueCheck.Text
