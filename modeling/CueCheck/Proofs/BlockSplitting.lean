import CueCheck.Proofs.Paragraphs
import Mathlib.Data.List.TakeWhile

/-!
Splitting into blocks loses and merges nothing: the blocks are the maximal runs of lines that show,
each such line is in one block, and carriage returns do not count wherever they stand.
-/

namespace CueCheck

namespace Text

theorem trim_blank_append {ws : Text} (h : ∀ c ∈ ws, isBlank c = true) (t : Text) :
    trim (ws ++ t) = trim t := by
  rw [trim, trim, trimStart, trimStart, List.dropWhile_append_of_pos h]

/-- Trimming takes blanks only, at either end. -/
theorem exists_eq_append_trim (t : Text) :
    ∃ before after, (∀ c ∈ before, isBlank c = true) ∧ (∀ c ∈ after, isBlank c = true) ∧
      t = before ++ (trim t ++ after) := by
  obtain ⟨after, hafter, ht⟩ := eq_trimEnd_append (trimStart t)
  refine ⟨t.takeWhile isBlank, after, ?_, hafter, ?_⟩
  · exact List.all_eq_true.1 List.all_takeWhile
  · rw [trim, ← ht, trimStart, List.takeWhile_append_dropWhile]

/-- Trimming and taking out a blank character can change places. -/
theorem trim_without {d : Char} (hd : isBlank d = true) (t : Text) :
    (trim t).without d = trim (t.without d) := by
  obtain ⟨before, after, hbefore, hafter, ht⟩ := exists_eq_append_trim t
  have hblank {ws : Text} (h : ∀ c ∈ ws, isBlank c = true) :
      ∀ c ∈ ws.without d, isBlank c = true := fun c hc => h c (List.mem_filter.1 hc).1
  have hsplit : t.without d = before.without d ++ ((trim t).without d ++ after.without d) := by
    conv_lhs => rw [ht]
    simp only [without, List.filter_append]
  rw [hsplit, trim_blank_append (hblank hbefore)]
  by_cases hne : (trim t).without d = []
  · rw [hne, List.nil_append, trim_of_blank (hblank hafter)]
  · exact (trim_append hne ((startsVisible_trim t).without hd) ((endsVisible_trim t).without hd)
      (hblank hafter)).symm

/-- The characters of a text that show. -/
def visible (t : Text) : Text := t.filter (!isBlank ·)

theorem visible_append (a b : Text) : visible (a ++ b) = visible a ++ visible b :=
  List.filter_append ..

theorem visible_of_blank {t : Text} (h : ∀ c ∈ t, isBlank c = true) : visible t = [] := by
  rw [visible, List.filter_eq_nil_iff]
  intro c hc
  simp [h c hc]

theorem visible_trim (t : Text) : visible (trim t) = visible t := by
  obtain ⟨before, after, hbefore, hafter, ht⟩ := exists_eq_append_trim t
  conv_rhs => rw [ht]
  rw [visible_append, visible_append, visible_of_blank hbefore, visible_of_blank hafter,
    List.nil_append, List.append_nil]

theorem visible_without {d : Char} (hd : isBlank d = true) (t : Text) :
    visible (t.without d) = visible t := by
  rw [visible, visible, without, List.filter_filter]
  apply List.filter_congr
  intro c _
  by_cases hc : c = d <;> simp [hc, hd]

theorem visible_flatten_lines (t : Text) : visible (lines t).flatten = visible t := by
  induction t with
  | nil => rfl
  | cons c t ih =>
    rw [lines]
    split
    · next hc =>
      subst hc
      exact ih
    · obtain ⟨first, rest, ht⟩ := exists_lines_eq_cons t
      rw [ht] at ih ⊢
      simp only [visible, consLine, List.flatten_cons, List.cons_append, List.filter_cons] at ih ⊢
      rw [ih]

theorem visible_flatten_shown (ls : List Text) :
    visible (ls.filter (!isBlankLine ·)).flatten = visible ls.flatten := by
  induction ls with
  | nil => rfl
  | cons l ls ih =>
    rw [List.flatten_cons, visible_append]
    cases hl : isBlankLine l with
    | false => rw [List.filter_cons_of_pos (by simp [hl]), List.flatten_cons, visible_append, ih]
    | true =>
      rw [List.filter_cons_of_neg (by simp [hl]), ih,
        visible_of_blank (List.all_eq_true.1 hl), List.nil_append]

/-! Paragraphs are maximal runs. -/

/-- Lines that all show, with a blank line or an end of the text on either side. -/
structure IsMaximalRun (before run after : List Text) : Prop where
  ne_nil : run ≠ []
  shown : ∀ l ∈ run, isBlankLine l = false
  blank_before : ∀ l ∈ before.getLast?, isBlankLine l = true
  blank_after : ∀ l ∈ after.head?, isBlankLine l = true

theorem paragraphs_append_blank (before : List Text) {b : Text} (hb : isBlankLine b = true)
    (after : List Text) :
    paragraphs (before ++ b :: after) = paragraphs before ++ paragraphs after := by
  rw [paragraphs, List.splitOnP_append_cons before after hb, List.filter_append, paragraphs,
    paragraphs]

/-- A run is a paragraph between those of the lines before it and those of the lines after it. -/
theorem IsMaximalRun.paragraphs_eq {before run after : List Text}
    (h : IsMaximalRun before run after) :
    paragraphs (before ++ (run ++ after)) = paragraphs before ++ run :: paragraphs after := by
  have hrest : paragraphs (run ++ after) = run :: paragraphs after := by
    cases after with
    | nil => rw [List.append_nil, paragraphs_of_shown h.ne_nil h.shown, paragraphs_nil]
    | cons b after =>
      have hb := h.blank_after b rfl
      rw [paragraphs_append h.ne_nil h.shown hb, paragraphs_blank_cons hb]
  rcases List.eq_nil_or_concat' before with rfl | ⟨init, b, rfl⟩
  · rw [List.nil_append, paragraphs_nil, List.nil_append, hrest]
  · have hb := h.blank_before b (by simp)
    rw [List.append_assoc, List.singleton_append, paragraphs_append_blank init hb,
      paragraphs_append_blank init hb, hrest, paragraphs_nil, List.append_nil]

theorem exists_first_run {l : Text} (hl : isBlankLine l = false) (ls : List Text) :
    ∃ run rest, l :: ls = run ++ rest ∧ IsMaximalRun [] run rest := by
  refine ⟨l :: ls.takeWhile (!isBlankLine ·), ls.dropWhile (!isBlankLine ·), ?_, ?_⟩
  · rw [List.cons_append, List.takeWhile_append_dropWhile]
  · constructor
    · exact List.cons_ne_nil _ _
    · intro m hm
      rcases List.mem_cons.1 hm with rfl | hm
      · exact hl
      · simpa using List.mem_takeWhile_imp hm
    · intro b hb
      cases hb
    · intro b hb
      have hstop := List.head?_dropWhile_not (!isBlankLine ·) ls
      rw [hb] at hstop
      simpa using hstop

/-- Lines are built from their end, by a blank line or by a whole run at a time. -/
@[elab_as_elim]
theorem runs_induction {motive : List Text → Prop} (nil : motive [])
    (blank : ∀ b ls, isBlankLine b = true → motive ls → motive (b :: ls))
    (run : ∀ first rest, IsMaximalRun [] first rest → motive rest → motive (first ++ rest))
    (ls : List Text) : motive ls := by
  match ls with
  | [] => exact nil
  | l :: ls =>
    by_cases hl : isBlankLine l = true
    · exact blank l ls hl (runs_induction nil blank run ls)
    · obtain ⟨first, rest, hls, hfirst⟩ := exists_first_run (by simpa using hl) ls
      have hlength : rest.length ≤ ls.length := by
        have hpos := List.length_pos_iff.2 hfirst.ne_nil
        have hsum := congrArg List.length hls
        rw [List.length_cons, List.length_append] at hsum
        omega
      rw [hls]
      exact run first rest hfirst (runs_induction nil blank run rest)
termination_by ls.length
decreasing_by
  · exact Nat.lt_succ_self _
  · exact Nat.lt_succ_of_le hlength

section

variable {first before run after : List Text}

theorem IsMaximalRun.blank_cons (h : IsMaximalRun before run after) {b : Text}
    (hb : isBlankLine b = true) : IsMaximalRun (b :: before) run after := by
  refine { h with blank_before := ?_ }
  intro l hl
  cases before with
  | nil =>
    cases hl
    exact hb
  | cons m before =>
    rw [List.getLast?_cons_cons] at hl
    exact h.blank_before l hl

/-- The line after a run is blank, so another run does not start there. -/
theorem IsMaximalRun.ne_nil_before (hfirst : IsMaximalRun [] first (before ++ (run ++ after)))
    (h : IsMaximalRun before run after) : before ≠ [] := by
  rintro rfl
  obtain ⟨m, more, rfl⟩ := List.exists_cons_of_ne_nil h.ne_nil
  have hblank := hfirst.blank_after m rfl
  have hshown := h.shown m List.mem_cons_self
  exact Bool.false_ne_true (hshown.symm.trans hblank)

theorem IsMaximalRun.run_append (hfirst : IsMaximalRun [] first (before ++ (run ++ after)))
    (h : IsMaximalRun before run after) : IsMaximalRun (first ++ before) run after := by
  refine { h with blank_before := ?_ }
  intro l hl
  rw [List.getLast?_append_of_ne_nil _ (hfirst.ne_nil_before h)] at hl
  exact h.blank_before l hl

theorem IsMaximalRun.of_append (h : IsMaximalRun [] first (before ++ after)) :
    IsMaximalRun [] first before := by
  refine { h with blank_after := fun b hb => h.blank_after b ?_ }
  rw [List.head?_append, hb]
  rfl

end

/-- A paragraph is a run, and the other paragraphs are those of the lines before and after it. -/
theorem exists_isMaximalRun {ls run : List Text} {ps qs : List (List Text)}
    (h : paragraphs ls = ps ++ run :: qs) :
    ∃ before after, ls = before ++ (run ++ after) ∧ IsMaximalRun before run after ∧
      paragraphs before = ps ∧ paragraphs after = qs := by
  induction ls using runs_induction generalizing ps with
  | nil =>
    rw [paragraphs_nil] at h
    simp at h
  | blank b ls hb ih =>
    rw [paragraphs_blank_cons hb] at h
    obtain ⟨before, after, rfl, hrun, hps, hqs⟩ := ih h
    exact ⟨b :: before, after, rfl, hrun.blank_cons hb, (paragraphs_blank_cons hb _).trans hps, hqs⟩
  | run first rest hfirst ih =>
    have hparagraphs : first :: paragraphs rest = ps ++ run :: qs :=
      hfirst.paragraphs_eq.symm.trans h
    cases ps with
    | nil =>
      injection hparagraphs with hrun hqs
      subst hrun
      exact ⟨[], rest, rfl, hfirst, paragraphs_nil, hqs⟩
    | cons p ps =>
      injection hparagraphs with hp hps
      subst hp
      obtain ⟨before, after, rfl, hrun, rfl, hqs⟩ := ih hps
      exact ⟨first ++ before, after, (List.append_assoc ..).symm, hfirst.run_append hrun,
        hfirst.of_append.paragraphs_eq, hqs⟩

/-- The paragraphs are the maximal runs in their order. -/
theorem paragraphs_eq_append_iff {ls run : List Text} {ps qs : List (List Text)} :
    paragraphs ls = ps ++ run :: qs ↔
      ∃ before after, ls = before ++ (run ++ after) ∧ IsMaximalRun before run after ∧
        paragraphs before = ps ∧ paragraphs after = qs := by
  constructor
  · exact exists_isMaximalRun
  · rintro ⟨before, after, rfl, hrun, rfl, rfl⟩
    exact hrun.paragraphs_eq

theorem exists_isMaximalRun_of_mem {ls run : List Text} (h : run ∈ paragraphs ls) :
    ∃ before after, ls = before ++ (run ++ after) ∧ IsMaximalRun before run after := by
  obtain ⟨ps, qs, hsplit⟩ := List.append_of_mem h
  obtain ⟨before, after, hls, hrun, -⟩ := exists_isMaximalRun hsplit
  exact ⟨before, after, hls, hrun⟩

theorem flatten_paragraphs (ls : List Text) :
    (paragraphs ls).flatten = ls.filter (!isBlankLine ·) := by
  induction ls using runs_induction with
  | nil => simp
  | blank b ls hb ih => rw [paragraphs_blank_cons hb, List.filter_cons_of_neg (by simp [hb]), ih]
  | run first rest hfirst ih =>
    have hparagraphs : paragraphs (first ++ rest) = first :: paragraphs rest :=
      hfirst.paragraphs_eq
    have hshown : first.filter (!isBlankLine ·) = first := by
      rw [List.filter_eq_self]
      intro l hl
      rw [hfirst.shown l hl]
      rfl
    rw [hparagraphs, List.flatten_cons, List.filter_append, hshown, ih]

end Text

namespace Block

open Text

/-- The lines of a content, trimmed and without carriage returns. -/
def contentLines (content : Text) : List Text := lines (content.without '\r').trim

theorem split_eq_map_unlines (content : Text) :
    split content = (paragraphs (contentLines content)).map unlines := by
  rw [split_eq_paragraphs, trim_without (by decide), contentLines]

theorem split_congr {content other : Text} (h : other.without '\r' = content.without '\r') :
    split other = split content := by
  rw [split_eq_map_unlines, split_eq_map_unlines, contentLines, contentLines, h]

/-- The lines of a block are a run of lines of the content. -/
theorem lines_of_mem_paragraphs {content : Text} {run : List Text}
    (h : run ∈ paragraphs (contentLines content)) : lines (unlines run) = run := by
  obtain ⟨before, after, hls, hrun⟩ := exists_isMaximalRun_of_mem h
  apply lines_unlines hrun.ne_nil
  intro l hl
  apply newline_not_mem_of_mem_lines (t := (content.without '\r').trim)
  rw [← contentLines, hls]
  exact List.mem_append_right _ (List.mem_append_left _ hl)

/-- A block has a line, and no blank one. -/
theorem shown_of_mem_split {content block : Text} (h : block ∈ split content) :
    block ≠ [] ∧ ∀ line ∈ lines block, isBlankLine line = false := by
  rw [split_eq_map_unlines] at h
  obtain ⟨run, hmem, rfl⟩ := List.mem_map.1 h
  obtain ⟨before, after, -, hrun⟩ := exists_isMaximalRun_of_mem hmem
  have hshown : ∀ line ∈ lines (unlines run), isBlankLine line = false := by
    rw [lines_of_mem_paragraphs hmem]
    exact hrun.shown
  refine ⟨?_, hshown⟩
  intro hnil
  rw [hnil] at hshown
  exact absurd (hshown [] (List.mem_singleton.2 rfl)) (by decide)

/-- Each line that shows is in one block, and the blocks have them in their order. -/
theorem flatMap_lines_split (content : Text) :
    (split content).flatMap lines = (contentLines content).filter (!isBlankLine ·) := by
  have hruns : (split content).map lines = paragraphs (contentLines content) := by
    rw [split_eq_map_unlines, List.map_map]
    conv_rhs => rw [← List.map_id (paragraphs (contentLines content))]
    exact List.map_congr_left fun run hrun => lines_of_mem_paragraphs hrun
  rw [List.flatMap_def, hruns, flatten_paragraphs]

/-- Splitting keeps all that shows. -/
theorem visible_flatten_split (content : Text) :
    visible (split content).flatten = visible content := by
  have hblocks (blocks : List Text) :
      visible blocks.flatten = visible (blocks.flatMap lines).flatten := by
    induction blocks with
    | nil => rfl
    | cons block blocks ih =>
      rw [List.flatten_cons, List.flatMap_cons, List.flatten_append, visible_append,
        visible_append, visible_flatten_lines, ih]
  rw [hblocks, flatMap_lines_split, visible_flatten_shown, contentLines, visible_flatten_lines,
    visible_trim, visible_without (by decide)]

/-- The blocks of a content are the maximal runs of its lines that show, each put together again. No
block is empty or has a blank line, each line that shows is in one block and in its order, and
carriage returns do not count. -/
theorem split_eq_maximalRuns (content : Text) :
    split content = (paragraphs (contentLines content)).map unlines ∧
      (∀ ps run qs, paragraphs (contentLines content) = ps ++ run :: qs ↔
        ∃ before after, contentLines content = before ++ (run ++ after) ∧
          IsMaximalRun before run after ∧ paragraphs before = ps ∧ paragraphs after = qs) ∧
      ((content.without '\r').trim = [] → split content = []) ∧
      (∀ block ∈ split content,
        block ≠ [] ∧ ∀ line ∈ lines block, isBlankLine line = false) ∧
      (split content).flatMap lines = (contentLines content).filter (!isBlankLine ·) ∧
      ∀ other, other.without '\r' = content.without '\r' → split other = split content := by
  refine ⟨split_eq_map_unlines content, fun ps run qs => paragraphs_eq_append_iff, ?_,
    fun block => shown_of_mem_split, flatMap_lines_split content, fun other => split_congr⟩
  intro hempty
  rw [split_eq_map_unlines, contentLines, hempty, lines, paragraphs_blank_cons isBlankLine_nil,
    paragraphs_nil, List.map_nil]

/-- Carriage returns make no difference in a word, in a blank line and at the ends; the indentation
of a block and the blanks at the end of the one before it stay. -/
theorem split_eq_maximalRuns_indented :
    let content : Text := "\r\nHi \r\n\t\r\n \n  th\rere\nyou\r\n\r".toList
    let other : Text := "\nHi \n\t\n\r \r\n  there\nyou\n".toList
    other.without '\r' = content.without '\r' ∧
      split content = ["Hi ".toList, "  there\nyou".toList] ∧ split other = split content ∧
      IsMaximalRun ["Hi ".toList, "\t".toList, " ".toList] ["  there".toList, "you".toList] [] := by
  intro content other
  have hsame : other.without '\r' = content.without '\r' := by decide
  have hlines : contentLines content =
      ["Hi ".toList, "\t".toList, " ".toList, "  there".toList, "you".toList] := by decide +kernel
  have hlast : IsMaximalRun ["Hi ".toList, "\t".toList, " ".toList]
      ["  there".toList, "you".toList] [] :=
    ⟨by decide, by decide, by decide, by decide⟩
  have hfirst : IsMaximalRun [] ["Hi ".toList] ["\t".toList, " ".toList] :=
    ⟨by decide, by decide, by decide, by decide⟩
  obtain ⟨hsplit, hruns, -, -, -, hcongr⟩ := split_eq_maximalRuns content
  have hparagraphs : paragraphs (contentLines content) =
      [["Hi ".toList], ["  there".toList, "you".toList]] := by
    refine (hruns [["Hi ".toList]] _ []).2 ⟨_, [], by rw [hlines]; rfl, hlast, ?_, paragraphs_nil⟩
    have hblank : paragraphs ["\t".toList, " ".toList] = [] := by
      rw [paragraphs_blank_cons (by decide), paragraphs_blank_cons (by decide), paragraphs_nil]
    have hword := hfirst.paragraphs_eq
    rw [hblank, paragraphs_nil] at hword
    exact hword
  refine ⟨hsame, ?_, hcongr other hsame, hlast⟩
  rw [hsplit, hparagraphs]
  decide

end Block

end CueCheck
