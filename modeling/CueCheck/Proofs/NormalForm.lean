import CueCheck.Proofs.StrippedTexts

/-!
Files that have been written: reading such a file and writing it again gives the same file, but for
blanks at the end of the last text, which are gone after the first time.
-/

namespace CueCheck

open Text

namespace Text

theorem EndsVisible.of_suffix {t last : Text} (h : EndsVisible t) (hlast : last <:+ t) :
    EndsVisible last := by
  obtain ⟨before, rfl⟩ := hlast
  exact h.of_append before

/-- A text that ends visibly ends with a line that shows. -/
theorem EndsVisible.exists_last_line {t : Text} (h : EndsVisible t) (hne : t ≠ []) :
    ∃ init last, lines t = init ++ [last] ∧ EndsVisible last ∧ isBlankLine last = false := by
  obtain ⟨init, last, hl⟩ := (List.eq_nil_or_concat' (lines t)).resolve_left (lines_ne_nil t)
  have ht := unlines_lines t
  rw [hl, unlines_concat] at ht
  have hlast : EndsVisible last := h.of_suffix ⟨_, ht⟩
  refine ⟨init, last, hl, hlast, ?_⟩
  by_cases hnil : last = []
  · -- The text would be empty or end with a newline.
    rw [hnil, List.append_nil] at ht
    rcases List.eq_nil_or_concat' init with rfl | ⟨before, line, rfl⟩
    · exact absurd ht.symm hne
    · rw [List.flatMap_append, List.flatMap_singleton, ← List.append_assoc] at ht
      have hend := h.of_suffix ⟨_, ht⟩
      exact absurd (hend '\n' rfl) (by decide)
  · rw [isBlankLine_eq_false_iff]
    exact ⟨_, List.getLast_mem hnil, hlast _ (List.getLast?_eq_some_getLast hnil)⟩

end Text

namespace Block

/-- The last block of a text ends where the text ends. -/
theorem exists_cut_eq_concat (t : Text) :
    ∃ init last, cut t = init ++ [last] ∧ last <:+ t ∧ (init = [] → last = t) := by
  have hcons (c : Char) {rest : Text} (h : ∃ init last, cut rest = init ++ [last] ∧
      last <:+ rest ∧ (init = [] → last = rest)) :
      ∃ init last, consLine c (cut rest) = init ++ [last] ∧
        last <:+ c :: rest ∧ (init = [] → last = c :: rest) := by
    obtain ⟨init, last, hcut, hsuffix, hwhole⟩ := h
    rw [hcut]
    cases init with
    | nil =>
      rw [hwhole rfl]
      exact ⟨[], c :: rest, rfl, List.suffix_refl _, fun _ => rfl⟩
    | cons first init =>
      exact ⟨(c :: first) :: init, last, rfl, hsuffix.trans (List.suffix_cons _ _),
        fun h => by cases h⟩
  fun_induction cut t with
  | case1 => exact ⟨[], [], rfl, List.suffix_refl _, fun _ => rfl⟩
  | case2 rest later hlater ih =>
    obtain ⟨init, last, hcut, hsuffix, -⟩ := ih
    obtain ⟨-, ws, -, -, hrest⟩ := eq_append_of_afterBlankLines? hlater
    have hlate : last <:+ rest := hsuffix.trans ⟨ws, hrest.symm⟩
    exact ⟨[] :: init, last, by rw [hcut]; rfl, hlate.trans (List.suffix_cons _ _),
      fun h => by cases h⟩
  | case3 rest hnone ih => exact hcons _ ih
  | case4 c rest hc ih => exact hcons c ih

variable {block : Text} {position : Int} {e : Entry}

theorem endsVisible_of_split {content last : Text} {init : List Text}
    (h : split content = init ++ [last]) : EndsVisible last := by
  have hends : EndsVisible (content.trim.without '\r') :=
    (endsVisible_trim content).without (by decide)
  obtain ⟨before, block, hcut, hsuffix, -⟩ := exists_cut_eq_concat (content.trim.without '\r')
  rw [split] at h
  split at h
  · simp at h
  · rw [hcut] at h
    obtain ⟨-, hlast⟩ := List.append_inj' h rfl
    rw [← List.singleton_inj.1 hlast]
    exact hends.of_suffix hsuffix

/-- The text of a subtitle ends where its block ends. -/
theorem endsVisible_text (hb : EndsVisible block) (h : read block position = .ok e)
    (hm : e.malformed = false) : EndsVisible e.text := by
  rcases read_cases h with ⟨f, rfl⟩ | ⟨first, timeLine, text, times, hsuffix, -, hs⟩
  · cases hm
  · obtain ⟨index, -, -, -, -, htext, -⟩ := subtitle_eq_ok hs
    have hne : block ≠ [] := by
      rintro rfl
      cases List.suffix_nil.1 hsuffix
    obtain ⟨init, last, hlines, hlast, hshown⟩ := hb.exists_last_line hne
    rw [htext]
    rcases List.eq_nil_or_concat' text with rfl | ⟨before, line, rfl⟩
    · exact fun c hc => by cases hc
    · have hline : line = last := by
        rw [hlines, List.filter_append, List.filter_singleton, hshown] at hsuffix
        obtain ⟨skipped, hskipped⟩ := hsuffix
        have hends := congrArg List.getLast? hskipped
        rw [← List.cons_append, ← List.append_assoc, List.getLast?_concat] at hends
        simpa using hends
      have hnil : last ≠ [] := by
        rintro rfl
        cases hshown
      rw [hline, unlines_concat]
      exact hlast.append hnil _

theorem isDigit_of_mem_indexDigits {line : Text} {c : Char} (h : c ∈ indexDigits line) :
    Numeral.isDigit c = true :=
  List.all_eq_true.1 List.all_takeWhile c h

/-- An index has no more digits than can be read, unless it is the position. -/
theorem readIndex_lt {line : Text} {index : Int} (hp : position < 10 ^ maxNumeralDigits)
    (h : readIndex line position = .ok index) : index < 10 ^ maxNumeralDigits := by
  rw [readIndex] at h
  split at h
  · injection h with h
    rwa [← h]
  · rw [Numeral.read] at h
    split at h
    · next hlen =>
      injection h with h
      have hvalue := Numeral.value_lt (indexDigits line) fun c => isDigit_of_mem_indexDigits
      have hpow := Nat.lt_of_lt_of_le hvalue (Nat.pow_le_pow_right (by decide) hlen)
      rw [← h]
      split
      · exact_mod_cast hpow
      · exact hp
    · cases h

end Block

theorem Text.endsVisible_iff_trimEnd_eq {t : Text} : EndsVisible t ↔ trimEnd t = t := by
  constructor
  · exact EndsVisible.trimEnd_eq
  · intro h
    rw [← h]
    exact endsVisible_trimEnd t

namespace Document

variable {d d' : Document} {content : Text} {filename target : Option Text}

theorem exists_read_last {blocks : List Text} {block : Text} {position : Nat}
    {entries : List Entry} (h : readBlocks position (blocks ++ [block]) = .ok entries) :
    ∃ init last, ∃ n : Nat, entries = init ++ [last] ∧ Block.read block n = .ok last := by
  induction blocks generalizing position entries with
  | nil =>
    obtain ⟨e, he, h⟩ := exists_of_bind_eq_ok h
    injection h with h
    exact ⟨[], e, position, h.symm, he⟩
  | cons first blocks ih =>
    obtain ⟨e, he, h⟩ := exists_of_bind_eq_ok h
    obtain ⟨rest, hrest, h⟩ := exists_of_bind_eq_ok h
    injection h with h
    obtain ⟨init, last, n, rfl, hread⟩ := ih hrest
    exact ⟨e :: init, last, n, h.symm, hread⟩

/-- Only a malformed block at the end of the content keeps blanks at the end of the last text. -/
theorem endsVisible_of_parse (h : parse content filename = .ok d)
    (hlast : ∀ e ∈ d.entries.getLast?, e.malformed = false) :
    ∀ e ∈ d.subtitles.getLast?, EndsVisible e.text := by
  have hblocks := (readBlocks_of_parse h).1
  rcases List.eq_nil_or_concat' (Block.split content) with hnil | ⟨blocks, block, hsplit⟩
  · rw [hnil] at hblocks
    injection hblocks with hentries
    rw [subtitles, ← hentries]
    intro e he
    cases he
  · rw [hsplit] at hblocks
    obtain ⟨init, last, n, hentries, hread⟩ := exists_read_last hblocks
    rw [hentries, List.getLast?_concat] at hlast
    have hm := hlast last rfl
    have hlist : d.subtitles = init.filter (!·.malformed) ++ [last] := by
      rw [subtitles, hentries, List.filter_append, List.filter_singleton, hm]
      rfl
    intro e he
    rw [hlist, List.getLast?_concat] at he
    rw [← Option.some.inj he]
    exact Block.endsVisible_text (Block.endsVisible_of_split hsplit) hread hm

/-- Only the position of a block can be an index with too many digits. -/
theorem index_lt_of_parse (h : parse content filename = .ok d)
    (hlen : (Block.split content).length < 10 ^ maxNumeralDigits) :
    ∀ e ∈ d.subtitles, e.index < 10 ^ maxNumeralDigits := by
  intro e he
  obtain ⟨hmem, hm⟩ := mem_subtitles.1 he
  obtain ⟨block, -, n, hn, hread⟩ := exists_read_of_readBlocks (readBlocks_of_parse h).1 hmem
  rcases Block.read_cases hread with ⟨f, rfl⟩ | ⟨first, timeLine, text, times, -, -, hs⟩
  · cases hm
  · obtain ⟨index, hindex, hi, -⟩ := Block.subtitle_eq_ok hs
    have hposition : (n : Int) < 10 ^ maxNumeralDigits := by
      have hle : n ≤ (Block.split content).length := by omega
      exact_mod_cast Nat.lt_of_le_of_lt hle hlen
    rw [hi]
    exact Block.readIndex_lt hposition hindex

theorem renderEntry_trimmedEnd_iff {e : Entry} :
    renderEntry e.trimmedEnd = renderEntry e ↔ EndsVisible e.text := by
  rw [endsVisible_iff_trimEnd_eq, Entry.renderEntry_eq, Entry.renderEntry_eq]
  simp [Entry.trimmedEnd, Entry.timeLine, Entry.startText, Entry.stopText]

/-- What is read of a document once it has been written. -/
def rewritten (target : Option Text) (d : Document) : Document :=
  ⟨(d.subtitles.modifyLast Entry.trimmedEnd).map Entry.reread, target⟩

theorem subtitles_rewritten (target : Option Text) (d : Document) :
    (d.rewritten target).subtitles =
      (d.subtitles.modifyLast Entry.trimmedEnd).map Entry.reread := by
  rw [subtitles, List.filter_eq_self.2, rewritten]
  intro e he
  obtain ⟨e', -, rfl⟩ := List.mem_map.1 he
  rfl

theorem holds_rewritten (target : Option Text) (d : Document) :
    (d.rewritten target).Holds ((d.subtitles.map Entry.cue).modifyLast Cue.trimmedEnd) := by
  rw [← map_cue_modifyLast]
  exact holds_reread _ _

/-- Reading trims the last text, which changes the file just where there is something to trim. -/
theorem render_rewritten_iff (target : Option Text) (d : Document) :
    (d.rewritten target).render = d.render ↔
      ∀ last ∈ d.subtitles.getLast?, EndsVisible last.text := by
  have hblocks : (d.rewritten target).subtitles.map renderEntry =
      (d.subtitles.modifyLast Entry.trimmedEnd).map renderEntry := by
    rw [subtitles_rewritten, List.map_map]
    rfl
  rw [render, render, hblocks]
  rcases List.eq_nil_or_concat' d.subtitles with hd | ⟨init, last, hd⟩
  · rw [hd]
    exact ⟨fun _ e he => (by cases he), fun _ => rfl⟩
  · rw [hd, List.modifyLast_concat, intercalate_append _ (by simp), intercalate_append _ (by simp),
      List.getLast?_concat]
    simp [renderEntry_trimmedEnd_iff]

theorem endsVisible_rewritten (target : Option Text) (d : Document) :
    ∀ last ∈ (d.rewritten target).subtitles.getLast?, EndsVisible last.text := by
  intro e he
  rw [subtitles_rewritten] at he
  rcases List.eq_nil_or_concat' d.subtitles with hd | ⟨init, last, hd⟩
  · rw [hd] at he
    cases he
  · rw [hd, List.modifyLast_concat, List.map_append, List.map_singleton,
      List.getLast?_concat] at he
    rw [← Option.some.inj he]
    exact endsVisible_trimEnd last.text

section Shown

variable (h : ∀ e ∈ d.subtitles, e.Writable ∧ e.text.NoBlankLine)
include h

theorem shown_rewritten (target : Option Text) :
    ∀ e ∈ (d.rewritten target).subtitles, e.Writable ∧ e.text.NoBlankLine := by
  have htrimmed := forall_mem_modifyLast h fun e ⟨hw, ht⟩ => ⟨hw.trimmedEnd, ht.trimEnd⟩
  intro e he
  rw [subtitles_rewritten] at he
  obtain ⟨e', he', rfl⟩ := List.mem_map.1 he
  obtain ⟨hw, ht⟩ := htrimmed e' he'
  exact ⟨{ hw with }, ht⟩

/-- A written document can be read unless an index has too many digits. -/
theorem parse_render_eq_ok_iff :
    parse d.render target = .ok d' ↔
      d' = d.rewritten target ∧ ∀ e ∈ d.subtitles, e.index < 10 ^ maxNumeralDigits := by
  constructor
  · intro hd'
    have hblocks := (readBlocks_of_parse hd').1
    rw [split_render h] at hblocks
    have htrimmed := forall_mem_modifyLast h fun e ⟨hw, ht⟩ => ⟨hw.trimmedEnd, ht.trimEnd⟩
    have hi : ∀ i ∈ d.subtitles.map Entry.index, i < 10 ^ maxNumeralDigits := by
      rw [← map_modifyLast_trimmedEnd (fun _ => rfl), List.forall_mem_map]
      exact index_lt_of_readBlocks htrimmed hblocks
    rw [List.forall_mem_map] at hi
    exact ⟨Except.ok.inj (hd'.symm.trans (parse_render_eq target h hi)), hi⟩
  · rintro ⟨rfl, hi⟩
    exact parse_render_eq target h hi

/-- What has been read of a written document is written and read as it is. -/
theorem parse_render_rewritten (hi : ∀ e ∈ d.subtitles, e.index < 10 ^ maxNumeralDigits)
    (target : Option Text) :
    ∃ d', parse (d.rewritten target).render target = .ok d' ∧
      d'.render = (d.rewritten target).render := by
  have hindices : ∀ e ∈ (d.rewritten target).subtitles, e.index < 10 ^ maxNumeralDigits := by
    intro e he
    rw [subtitles_rewritten] at he
    obtain ⟨e', he', rfl⟩ := List.mem_map.1 he
    exact forall_mem_modifyLast hi (fun _ hlt => hlt) e' he'
  refine ⟨_, parse_render_eq target (shown_rewritten h target) hindices, ?_⟩
  exact (render_rewritten_iff target _).2 (endsVisible_rewritten target d)

end Shown

theorem shown_of_parse (h : parse content filename = .ok d)
    (ht : ∀ e ∈ d.subtitles, e.start < 360000000 ∧ e.stop < 360000000) :
    ∀ e ∈ d.subtitles, e.Writable ∧ e.text.NoBlankLine :=
  fun e he => ⟨writable_of_parse h ht e he, (isRead_of_parse h he).text_shown⟩

/-- A file that was written is read with the subtitles that were written, the last with its text
trimmed at the end, and written again as it was unless there was something to trim; it is the same
if the last block of the content was a subtitle, and from the second time on. It can be read unless
an index has too many digits, which takes as many blocks. -/
theorem render_parse_render (h : parse content filename = .ok d)
    (ht : ∀ e ∈ d.subtitles, e.start < 360000000 ∧ e.stop < 360000000) (target : Option Text) :
    ((∃ d', parse d.render target = .ok d') ↔
        ∀ e ∈ d.subtitles, e.index < 10 ^ maxNumeralDigits) ∧
      ((Block.split content).length < 10 ^ maxNumeralDigits →
        ∃ d', parse d.render target = .ok d') ∧
      ∀ d', parse d.render target = .ok d' →
        d'.Holds ((d.subtitles.map Entry.cue).modifyLast Cue.trimmedEnd) ∧
        (d'.render = d.render ↔ ∀ last ∈ d.subtitles.getLast?, EndsVisible last.text) ∧
        ((∀ last ∈ d.entries.getLast?, last.malformed = false) → d'.render = d.render) ∧
        ∃ d'', parse d'.render target = .ok d'' ∧ d''.render = d'.render := by
  have hshown := shown_of_parse h ht
  have hread : (∃ d', parse d.render target = .ok d') ↔
      ∀ e ∈ d.subtitles, e.index < 10 ^ maxNumeralDigits := by
    simp only [parse_render_eq_ok_iff hshown, exists_eq_left]
  refine ⟨hread, fun hlen => hread.2 (index_lt_of_parse h hlen), fun d' hd' => ?_⟩
  obtain ⟨rfl, hi⟩ := (parse_render_eq_ok_iff hshown).1 hd'
  have hsame := render_rewritten_iff target d
  refine ⟨holds_rewritten target d, hsame, ?_, parse_render_rewritten hshown hi target⟩
  intro hlast
  exact hsame.2 (endsVisible_of_parse h hlast)

/-- Indices that are no plain numbers, fields above their range, a line that only starts like a time
line, blanks at the end of a text and a malformed block are all made regular the first time. -/
theorem render_parse_render_irregular :
    let content := ("x\n00:75:00,000 --> 00:00:61,999 -->\n a \n \nlost\n\n" ++
      "+09z\r\n00:00:02,000 --> 00:00:03,000\r\nTwo \r\n b").toList
    let file := ("1\n01:15:00,000 --> 00:01:01,999\n a \n\n" ++
      "9\n00:00:02,000 --> 00:00:03,000\nTwo \n b\n\n").toList
    ∃ d, parse content none = .ok d ∧ d.render = file ∧
      (∀ e ∈ d.subtitles, e.start < 360000000 ∧ e.stop < 360000000) ∧
      ∃ d', parse file none = .ok d' ∧ d'.Holds (d.subtitles.map Entry.cue) ∧
        d'.render = file := by
  intro content file
  have hread : (parse content none).map (fun d => (d.render, d.subtitles.map Entry.cue,
      d.entries.getLast?.map (·.malformed))) = .ok (file,
        [⟨1, 4500000, 61999, " a ".toList⟩, ⟨9, 2000, 3000, "Two \n b".toList⟩], some false) := by
    decide +kernel
  obtain ⟨d, hd, hfacts⟩ := exists_of_map_eq_ok hread
  simp only [Prod.mk.injEq] at hfacts
  obtain ⟨hfile, hcues, hlast⟩ := hfacts
  have hsmall : ∀ e ∈ d.subtitles, e.index < 10 ∧ e.start < 360000000 ∧ e.stop < 360000000 := by
    have hall : ∀ c ∈ d.subtitles.map Entry.cue,
        c.index < 10 ∧ c.start < 360000000 ∧ c.stop < 360000000 := by
      rw [hcues]
      decide
    exact fun e he => hall e.cue (List.mem_map_of_mem he)
  have ht : ∀ e ∈ d.subtitles, e.start < 360000000 ∧ e.stop < 360000000 :=
    fun e he => (hsmall e he).2
  have hsubtitle : ∀ last ∈ d.entries.getLast?, last.malformed = false := by
    intro last hmem
    rw [Option.mem_def.1 hmem] at hlast
    exact Option.some.inj hlast
  obtain ⟨hreadable, -, hagain⟩ := render_parse_render hd ht none
  obtain ⟨d', hd'⟩ := hreadable.2 fun e he => Numeral.lt_pow_maxNumeralDigits (hsmall e he).1
  obtain ⟨hholds, -, hsame, -⟩ := hagain d' hd'
  have htrimmed : (d.subtitles.map Entry.cue).modifyLast Cue.trimmedEnd =
      d.subtitles.map Entry.cue := by
    rw [hcues]
    decide
  rw [htrimmed] at hholds
  refine ⟨d, hd, hfile, ht, d', ?_, hholds, (hsame hsubtitle).trans hfile⟩
  rw [← hfile]
  exact hd'

/-- Blanks at the end of a text that a malformed block follows are written the first time, and
trimmed when the file is read. -/
theorem render_parse_render_trailing :
    let content := "1\n00:00:01,000 --> 00:00:02,000\nHi  \n\njunk".toList
    ∃ d d', parse content none = .ok d ∧ parse d.render none = .ok d' ∧
      d.render = "1\n00:00:01,000 --> 00:00:02,000\nHi  \n\n".toList ∧
      d'.render = "1\n00:00:01,000 --> 00:00:02,000\nHi\n\n".toList ∧ d'.render ≠ d.render := by
  intro content
  have hread : ((parse content none).bind fun d =>
      (parse d.render none).map fun d' => (d.render, d'.render)) =
        .ok ("1\n00:00:01,000 --> 00:00:02,000\nHi  \n\n".toList,
          "1\n00:00:01,000 --> 00:00:02,000\nHi\n\n".toList) := by decide +kernel
  obtain ⟨d, hd, hread⟩ := exists_of_bind_eq_ok hread
  obtain ⟨d', hd', htexts⟩ := exists_of_map_eq_ok hread
  injection htexts with hfirst hsecond
  refine ⟨d, d', hd, hd', hfirst, hsecond, ?_⟩
  rw [hfirst, hsecond]
  decide +kernel

end Document

end CueCheck
