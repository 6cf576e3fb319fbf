import CueCheck.Document
import CueCheck.Proofs.Lines

/-!
Blocks as paragraphs: the blocks of a text are the maximal runs of its lines that are not blank.
-/

namespace CueCheck

namespace Text

/-- The runs of lines that are not blank, which blank lines separate. -/
noncomputable def paragraphs (ls : List Text) : List (List Text) :=
  (ls.splitOnP isBlankLine).filter (!·.isEmpty)

@[simp] theorem paragraphs_nil : paragraphs [] = [] := by
  simp [paragraphs]

theorem paragraphs_blank_cons {b : Text} (hb : isBlankLine b = true) (ls : List Text) :
    paragraphs (b :: ls) = paragraphs ls := by
  simp [paragraphs, List.splitOnP_cons_eq_if_modifyHead, hb]

theorem paragraphs_blank_append {bs : List Text} (hb : ∀ b ∈ bs, isBlankLine b = true)
    (ls : List Text) : paragraphs (bs ++ ls) = paragraphs ls := by
  induction bs with
  | nil => rfl
  | cons b bs ih =>
    rw [List.cons_append, paragraphs_blank_cons (hb b List.mem_cons_self)]
    exact ih fun l hl => hb l (List.mem_cons_of_mem _ hl)

theorem paragraphs_of_shown {p : List Text} (hne : p ≠ [])
    (hp : ∀ l ∈ p, isBlankLine l = false) : paragraphs p = [p] := by
  simp [paragraphs, List.splitOnP_eq_singleton hp, hne]

theorem paragraphs_append {p : List Text} (hne : p ≠ [])
    (hp : ∀ l ∈ p, isBlankLine l = false) {b : Text} (hb : isBlankLine b = true)
    (ls : List Text) : paragraphs (p ++ b :: ls) = p :: paragraphs ls := by
  simp [paragraphs, List.splitOnP_append_cons_of_forall_mem hp b hb, hne]

theorem paragraphs_cons {l : Text} (hl : isBlankLine l = false) (ls : List Text) :
    paragraphs (l :: ls) =
      (l :: ls.takeWhile (!isBlankLine ·)) :: paragraphs (ls.dropWhile (!isBlankLine ·)) := by
  have hp : ∀ m ∈ l :: ls.takeWhile (!isBlankLine ·), isBlankLine m = false := by
    intro m hm
    rcases List.mem_cons.1 hm with rfl | hm
    · exact hl
    · simpa using List.all_eq_true.1 List.all_takeWhile m hm
  have hls := List.takeWhile_append_dropWhile (p := (!isBlankLine ·)) (l := ls)
  cases hd : ls.dropWhile (!isBlankLine ·) with
  | nil =>
    rw [hd, List.append_nil] at hls
    rw [hls] at hp ⊢
    rw [paragraphs_of_shown (List.cons_ne_nil _ _) hp, paragraphs_nil]
  | cons b rest =>
    have hb : isBlankLine b = true := by
      have h := List.head?_dropWhile_not (!isBlankLine ·) ls
      rw [hd] at h
      simpa using h
    rw [paragraphs_blank_cons hb, ← paragraphs_append (List.cons_ne_nil _ _) hp hb,
      List.cons_append, ← hd, hls]

theorem paragraphs_sublist {ls p : List Text} (h : p ∈ paragraphs ls) : p.Sublist ls := by
  have hs : p ∈ ls.splitOnP isBlankLine := (List.mem_filter.1 h).1
  clear h
  induction ls generalizing p with
  | nil =>
    rw [List.splitOnP_nil, List.mem_singleton] at hs
    exact hs ▸ List.Sublist.refl _
  | cons l ls ih =>
    rw [List.splitOnP_cons_eq_if_modifyHead] at hs
    split at hs
    · rcases List.mem_cons.1 hs with rfl | hs
      · exact List.nil_sublist _
      · exact (ih hs).cons l
    · cases hq : ls.splitOnP isBlankLine with
      | nil => exact absurd hq (List.splitOnP_ne_nil _ _)
      | cons q qs =>
        rw [hq] at hs ih
        rcases List.mem_cons.1 hs with rfl | hs
        · exact (ih List.mem_cons_self).cons_cons l
        · exact (ih (List.mem_cons_of_mem _ hs)).cons l

end Text

namespace Block

open Text

/-- The blanks that a cut takes are whole lines. -/
theorem lines_of_afterBlankLines? {t later : Text} (h : afterBlankLines? t = some later) :
    ∃ bs, bs ≠ [] ∧ (∀ b ∈ bs, isBlankLine b = true) ∧ lines t = bs ++ lines later := by
  induction t with
  | nil => cases h
  | cons c t ih =>
    rw [afterBlankLines?] at h
    split at h
    · next hc =>
      cases ht : afterBlankLines? t with
      | some r =>
        rw [ht, Option.some_or, Option.some.injEq] at h
        obtain ⟨bs, hne, hbs, hl⟩ := ih (by rw [ht, h])
        rw [lines, hl]
        split
        · exact ⟨[] :: bs, List.cons_ne_nil _ _, by simpa using hbs, rfl⟩
        · cases bs with
          | nil => exact absurd rfl hne
          | cons b bs =>
            refine ⟨(c :: b) :: bs, List.cons_ne_nil _ _, ?_, rfl⟩
            intro l hl
            rcases List.mem_cons.1 hl with rfl | hl
            · have hb := hbs b List.mem_cons_self
              rw [isBlankLine] at hb ⊢
              rw [List.all_cons, hc, hb]
              rfl
            · exact hbs l (List.mem_cons_of_mem _ hl)
      | none =>
        rw [ht, Option.none_or] at h
        split at h
        · next hn =>
          rw [Option.some.injEq] at h
          refine ⟨[[]], List.cons_ne_nil _ _, by simp, ?_⟩
          rw [lines, if_pos hn, h]
          rfl
        · cases h
    · cases h

/-- A cut takes all blank lines that there are, and nothing but blanks. -/
theorem eq_append_of_afterBlankLines? {t later : Text} (h : afterBlankLines? t = some later) :
    afterBlankLines? later = none ∧
      ∃ ws, ws ≠ [] ∧ (∀ c ∈ ws, isBlank c = true) ∧ t = ws ++ later := by
  induction t with
  | nil => cases h
  | cons c t ih =>
    rw [afterBlankLines?] at h
    split at h
    · next hc =>
      cases ht : afterBlankLines? t with
      | some r =>
        rw [ht, Option.some_or, Option.some.injEq] at h
        obtain ⟨hr, ws, hne, hws, hl⟩ := ih (by rw [ht, h])
        refine ⟨hr, c :: ws, List.cons_ne_nil _ _, ?_, by rw [hl]; rfl⟩
        simpa [hc] using hws
      | none =>
        rw [ht, Option.none_or] at h
        split at h
        · rw [Option.some.injEq] at h
          rw [← h]
          exact ⟨ht, [c], List.cons_ne_nil _ _, by simpa using hc, rfl⟩
        · cases h
    · cases h

/-- Where no cut can be made, the text starts with a line that shows. -/
theorem shown_of_afterBlankLines?_none {t first : Text} {rest : List Text}
    (h : afterBlankLines? t = none) (hne : t ≠ []) (he : EndsVisible t)
    (hl : lines t = first :: rest) : isBlankLine first = false := by
  induction t generalizing first rest with
  | nil => exact absurd rfl hne
  | cons c t ih =>
    rw [isBlankLine_eq_false_iff]
    by_cases hc : isBlank c = true
    · rw [afterBlankLines?, if_pos hc, Option.or_eq_none_iff] at h
      have hn : c ≠ '\n' := fun hn => by simp [hn] at h
      have ht : t ≠ [] := by
        rintro rfl
        exact Bool.false_ne_true ((he c rfl).symm.trans hc)
      have het : EndsVisible t := EndsVisible.of_append [c] he
      rw [lines, if_neg hn] at hl
      obtain ⟨line, more, hlt⟩ := exists_lines_eq_cons t
      rw [hlt] at hl
      obtain ⟨d, hd, hdb⟩ := isBlankLine_eq_false_iff.1 (ih h.1 ht het hlt)
      injection hl with hfirst hmore
      rw [← hfirst]
      exact ⟨d, List.mem_cons_of_mem _ hd, hdb⟩
    · have hn : c ≠ '\n' := by
        rintro rfl
        exact hc isBlank_newline
      rw [lines, if_neg hn] at hl
      refine ⟨c, ?_, by simpa using hc⟩
      obtain ⟨line, more, hlt⟩ := exists_lines_eq_cons t
      rw [hlt] at hl
      injection hl with hfirst hmore
      rw [← hfirst]
      exact List.mem_cons_self

theorem afterBlankLines?_ne_nil {t later : Text} (h : afterBlankLines? t = some later)
    (he : EndsVisible t) : later ≠ [] := by
  rintro rfl
  obtain ⟨-, ws, hne, hws, ht⟩ := eq_append_of_afterBlankLines? h
  rw [List.append_nil] at ht
  subst ht
  have hlast := he _ (List.getLast?_eq_some_getLast hne)
  rw [hws _ (List.getLast_mem hne)] at hlast
  cases hlast

/-- The first block goes on to the first blank line after its first line; the others are the
paragraphs from there on. -/
theorem cut_eq_cons {t first : Text} {rest : List Text} (he : EndsVisible t)
    (hl : lines t = first :: rest) :
    cut t = unlines (first :: rest.takeWhile (!isBlankLine ·)) ::
      (paragraphs (rest.dropWhile (!isBlankLine ·))).map unlines := by
  -- By induction on the cuts: at a newline the first line is empty, and the rest of the text has
  -- the other lines; `he` keeps a cut from ending the text.
  fun_induction cut t generalizing first rest with
  | case1 =>
    cases hl
    simp
  | case2 t later hlater ih =>
    have het : EndsVisible t := EndsVisible.of_append ['\n'] he
    obtain ⟨hnone, ws, -, hws, ht⟩ := eq_append_of_afterBlankLines? hlater
    have hne := afterBlankLines?_ne_nil hlater het
    have hel : EndsVisible later := (ht ▸ het : EndsVisible (ws ++ later)).of_append
    obtain ⟨bs, hbne, hbs, hlt⟩ := lines_of_afterBlankLines? hlater
    rw [lines, if_pos rfl, hlt] at hl
    injection hl with hfirst hrest
    subst hfirst hrest
    obtain ⟨line, more, hll⟩ := exists_lines_eq_cons later
    have hshown := shown_of_afterBlankLines?_none hnone hne hel hll
    cases bs with
    | nil => exact absurd rfl hbne
    | cons b bs =>
      have hb := hbs b List.mem_cons_self
      have hrun : (b :: bs ++ line :: more).takeWhile (!isBlankLine ·) = [] := by simp [hb]
      have hrest : (b :: bs ++ line :: more).dropWhile (!isBlankLine ·) =
          b :: bs ++ line :: more := by simp [hb]
      rw [ih hel hll, hll, hrun, hrest, paragraphs_blank_append hbs, paragraphs_cons hshown]
      simp
  | case3 t hnone ih =>
    have htne : t ≠ [] := by
      rintro rfl
      exact Bool.false_ne_true ((he '\n' rfl).symm.trans isBlank_newline)
    have het : EndsVisible t := EndsVisible.of_append ['\n'] he
    rw [lines, if_pos rfl] at hl
    injection hl with hfirst hrest
    subst hfirst hrest
    obtain ⟨line, more, hlt⟩ := exists_lines_eq_cons t
    have hshown := shown_of_afterBlankLines?_none hnone htne het hlt
    rw [ih het hlt, hlt]
    simp [consLine, hshown, unlines_cons]
  | case4 c t hc ih =>
    rw [lines, if_neg hc] at hl
    obtain ⟨line, more, hlt⟩ := exists_lines_eq_cons t
    rw [hlt] at hl
    injection hl with hfirst hrest
    subst hfirst hrest
    by_cases htne : t = []
    · subst htne
      cases hlt
      rw [cut]
      simp [consLine]
    · rw [ih (EndsVisible.of_append [c] he) hlt]
      simp only [consLine, unlines_consLine]

/-- The blocks of a text that starts and ends visibly are its paragraphs. -/
theorem cut_eq_paragraphs {t : Text} (hne : t ≠ []) (hs : StartsVisible t)
    (he : EndsVisible t) : cut t = (paragraphs (lines t)).map unlines := by
  obtain ⟨first, rest, hl⟩ := exists_lines_eq_cons t
  have hnone : afterBlankLines? t = none := by
    cases t with
    | nil => rfl
    | cons c t => simp [afterBlankLines?, hs c rfl]
  have hshown := shown_of_afterBlankLines?_none hnone hne he hl
  rw [cut_eq_cons he hl, hl, paragraphs_cons hshown]
  rfl

/-- The blocks of a content are the paragraphs of its trimmed text without carriage returns. -/
theorem split_eq_paragraphs (content : Text) :
    split content = (paragraphs (lines (content.trim.without '\r'))).map unlines := by
  have hr : isBlank '\r' = true := by decide
  rw [split]
  split
  · next h =>
    rw [List.isEmpty_iff] at h
    rw [h, lines, paragraphs_blank_cons isBlankLine_nil, paragraphs_nil]
    rfl
  · next h =>
    rw [List.isEmpty_iff] at h
    exact cut_eq_paragraphs h ((startsVisible_trim content).without hr)
      ((endsVisible_trim content).without hr)

/-- A block is a part of the content without carriage returns. -/
theorem sublist_of_mem_split {content block : Text} (h : block ∈ split content) :
    block.Sublist (content.without '\r') := by
  rw [split_eq_paragraphs] at h
  obtain ⟨p, hp, rfl⟩ := List.mem_map.1 h
  have hs := unlines_sublist (paragraphs_sublist hp)
  rw [unlines_lines] at hs
  exact hs.trans ((trim_sublist content).filter _)

end Block

end CueCheck
