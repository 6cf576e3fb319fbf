import CueCheck.Proofs.Passes
import CueCheck.Proofs.RoundTrip

/-!
Removing annotations and markup: what stays of a text is a part of it, and the fixed document can be
read back exactly when no blank line is left inside a text.
-/

namespace CueCheck

open Text

theorem Fix.permitted_name (fix : Fix) : Fix.permitted fix.name.toList true = .ok fix := by
  cases fix <;> rfl

namespace Document

/-- The document after a list of confirmed fixes. -/
def applyFixes (rules : Rules) (d : Document) (fixes : List Fix) : Document :=
  fixes.foldl (fun d fix => (d.applyFix rules fix.name.toList true).1) d

theorem applyFix_fst (rules : Rules) (d : Document) (fix : Fix) :
    (d.applyFix rules fix.name.toList true).1 = ((fix.run rules d).1.analyze rules).1 := by
  rw [applyFix, Fix.permitted_name]
  rfl

/-- Each subtitle is writable. -/
def Writable (d : Document) : Prop := ∀ e ∈ d.subtitles, e.Writable

/-- Each subtitle is writable and its text trimmed. -/
def Trimmed (d : Document) : Prop := ∀ e ∈ d.subtitles, e.Writable ∧ EndsVisible e.text

variable {d : Document} {rules : Rules}

theorem Trimmed.writable (h : d.Trimmed) : d.Writable := fun e he => (h e he).1

/-- A trimmed document is read back as it is exactly when none of its texts has a blank line and
none of its indices has too many digits. -/
theorem Trimmed.parse_render_iff (h : d.Trimmed) (filename : Option Text) :
    (∃ d', parse d.render filename = .ok d' ∧ d'.Holds (d.subtitles.map Entry.cue)) ↔
      ∀ e ∈ d.subtitles, e.text.NoBlankLine ∧ e.index < 10 ^ maxNumeralDigits := by
  have hends : d.subtitles.modifyLast Entry.trimmedEnd = d.subtitles :=
    modifyLast_trimmedEnd fun e he => (h e he).2
  constructor
  · -- No text that is read has a blank line, and these texts are all read back.
    rintro ⟨d', hparse, hmal, hcues⟩
    have hshown : ∀ e ∈ d.subtitles, e.Writable ∧ e.text.NoBlankLine := by
      intro e he
      refine ⟨h.writable e he, ?_⟩
      have hc : e.cue ∈ d'.entries.map Entry.cue := by
        rw [hcues]
        exact List.mem_map_of_mem he
      obtain ⟨e', he', hcue⟩ := List.mem_map.1 hc
      have hsub : e' ∈ d'.subtitles := by
        rw [malformed, List.filter_eq_nil_iff] at hmal
        exact mem_subtitles.2 ⟨he', by simpa using hmal e' he'⟩
      have htext : e'.text = e.text := congrArg Cue.text hcue
      exact htext ▸ (isRead_of_parse hparse hsub).text_shown
    have hblocks := (readBlocks_of_parse hparse).1
    rw [split_render hshown, hends] at hblocks
    intro e he
    exact ⟨(hshown e he).2, index_lt_of_readBlocks hshown hblocks e he⟩
  · intro hfits
    have hread := parse_render_eq filename (fun e he => ⟨h.writable e he, (hfits e he).1⟩)
      fun e he => (hfits e he).2
    rw [hends] at hread
    exact ⟨_, hread, holds_reread _ _⟩

theorem writable_of_parse {content : Text} {filename : Option Text}
    (h : parse content filename = .ok d)
    (ht : ∀ e ∈ d.subtitles, e.start < 360000000 ∧ e.stop < 360000000) : d.Writable := by
  intro e he
  have hr := isRead_of_parse h he
  refine ⟨hr.index_pos, hr.start_nonneg, (ht e he).1, hr.stop_nonneg, (ht e he).2, ?_⟩
  intro hc
  have hmem := hr.text_sublist.subset hc
  simp [Text.without] at hmem

theorem subtitles_analyze {P : Entry → Prop} (hP : ∀ e issues, P e → P { e with issues })
    (h : ∀ e ∈ d.subtitles, P e) : ∀ e ∈ (d.analyze rules).1.subtitles, P e := by
  intro e he
  obtain ⟨hmem, hmal⟩ := mem_subtitles.1 he
  have hall := forall_checkEntries (P := fun e => e.malformed = false → P e) rules
    (fun e issues _ he hm => hP e issues (he hm)) fun e he hm => h e (mem_subtitles.2 ⟨he, hm⟩)
  exact hall e hmem hmal

/-- A fix that removes text leaves the subtitles writable and trims their texts. -/
theorem Writable.strip (h : d.Writable) {fix : Fix} (hf : fix.destructive = true) :
    (d.applyFix rules fix.name.toList true).1.Trimmed := by
  have hedit {edit : Text → Text} (hs : ∀ t, (edit t).Sublist t)
      (hv : ∀ t, EndsVisible (edit t)) :
      Trimmed { d with entries := (editTexts edit d.entries).1 } := by
    intro e he
    obtain ⟨hmem, hmal⟩ := mem_subtitles.1 he
    refine forall_editTexts (P := fun e => e.malformed = false → e.Writable)
      (Q := fun e => e.malformed = false → e.Writable ∧ EndsVisible e.text)
      ?_ ?_ (fun e he hm => h e (mem_subtitles.2 ⟨he, hm⟩)) e hmem hmal
    · intro e hm _ hn
      rw [hm] at hn
      cases hn
    · intro e hm hw _
      have hw := hw hm
      exact ⟨{ hw with no_return := fun hc => hw.no_return ((hs _).subset hc) }, hv _⟩
  rw [applyFix_fst]
  apply subtitles_analyze
  · exact fun e issues he => ⟨{ he.1 with }, he.2⟩
  · cases fix with
    | resolveTiming => cases hf
    | stripAnnotations =>
      exact hedit Entry.withoutAnnotations_sublist fun t => endsVisible_trim _
    | stripMarkup => exact hedit Entry.withoutMarkup_sublist fun t => endsVisible_trim _

theorem Writable.applyFixes (h : d.Writable) {fixes : List Fix}
    (hf : ∀ fix ∈ fixes, fix.destructive = true) : (d.applyFixes rules fixes).Writable := by
  induction fixes generalizing d with
  | nil => exact h
  | cons fix fixes ih =>
    exact ih (h.strip (hf fix List.mem_cons_self)).writable
      fun f hmem => hf f (List.mem_cons_of_mem _ hmem)

theorem Writable.trimmed_applyFixes (h : d.Writable) {fixes : List Fix} (hne : fixes ≠ [])
    (hf : ∀ fix ∈ fixes, fix.destructive = true) : (d.applyFixes rules fixes).Trimmed := by
  obtain ⟨init, last, rfl⟩ := (List.eq_nil_or_concat' fixes).resolve_left hne
  have hinit : (d.applyFixes rules init).Writable :=
    h.applyFixes fun f hmem => hf f (List.mem_append_left _ hmem)
  rw [Document.applyFixes, List.foldl_append]
  exact hinit.strip (hf last (by simp))

/-- Once text has been removed, the document is read back as it is exactly when no text has been
left with a blank line inside, which would cut the subtitle in two, and no index is too long. -/
theorem parse_render_stripped_iff (rules : Rules) {content : Text} {filename : Option Text}
    (hd : parse content filename = .ok d)
    (ht : ∀ e ∈ d.subtitles, e.start < 360000000 ∧ e.stop < 360000000)
    {fixes : List Fix} (hne : fixes ≠ []) (hf : ∀ fix ∈ fixes, fix.destructive = true)
    (target : Option Text) :
    (∃ d', parse (d.applyFixes rules fixes).render target = .ok d' ∧
        d'.Holds ((d.applyFixes rules fixes).subtitles.map Entry.cue)) ↔
      ∀ e ∈ (d.applyFixes rules fixes).subtitles,
        e.text.NoBlankLine ∧ e.index < 10 ^ maxNumeralDigits :=
  ((writable_of_parse hd ht).trimmed_applyFixes hne hf).parse_render_iff target

/-- The document with one subtitle from a second to three seconds, as it is read. -/
def ofText (text : Text) : Document :=
  let raw := "1\n00:00:01,000 --> 00:00:03,000\n".toList ++ text
  { entries := [{ index := 1, start := 1000, stop := 3000, text, raw }] }

/-- Annotations at the ends of a text and of a line leave no blank line inside. -/
theorem parse_render_stripped_outer :
    let d := ofText "(door)\n<i>Who [softly]\nis</i> there?\n[bell]".toList
    let fixes : List Fix := [.stripMarkup, .stripAnnotations]
    (∃ content, parse content none = .ok d) ∧
      (∀ e ∈ d.subtitles, e.start < 360000000 ∧ e.stop < 360000000) ∧
      fixes ≠ [] ∧ (∀ fix ∈ fixes, fix.destructive = true) ∧
      ∃ d', parse (d.applyFixes {} fixes).render none = .ok d' ∧
        d'.Holds [⟨1, 1000, 3000, "Who \nis there?".toList⟩] := by
  intro d fixes
  have hd : parse (d.entries.flatMap (·.raw)) none = .ok d := by decide +kernel
  have ht : ∀ e ∈ d.subtitles, e.start < 360000000 ∧ e.stop < 360000000 := by decide
  have hne : fixes ≠ [] := by decide
  have hf : ∀ fix ∈ fixes, fix.destructive = true := by decide
  have hcues : (d.applyFixes {} fixes).subtitles.map Entry.cue =
      [⟨1, 1000, 3000, "Who \nis there?".toList⟩] := by decide +kernel
  refine ⟨⟨_, hd⟩, ht, hne, hf, ?_⟩
  rw [← hcues]
  apply (parse_render_stripped_iff {} hd ht hne hf none).2
  intro e he
  have hcue := List.mem_map_of_mem (f := Entry.cue) he
  rw [hcues, List.mem_singleton] at hcue
  have hindex : e.index = 1 := congrArg Cue.index hcue
  have htext : e.text = "Who \nis there?".toList := congrArg Cue.text hcue
  rw [hindex, htext]
  exact ⟨by decide, Numeral.lt_pow_maxNumeralDigits (by decide)⟩

/-- An annotation that fills a line between two others leaves a blank line there: the later line
comes back as a malformed block. -/
theorem parse_render_stripped_splits :
    let d := ofText "a\n[b]\nc".toList
    (∃ content, parse content none = .ok d) ∧
      (∀ e ∈ d.subtitles, e.start < 360000000 ∧ e.stop < 360000000) ∧
      ¬ ∃ d', parse (d.applyFixes {} [.stripAnnotations]).render none = .ok d' ∧
        d'.Holds ((d.applyFixes {} [.stripAnnotations]).subtitles.map Entry.cue) := by
  intro d
  have hd : parse (d.entries.flatMap (·.raw)) none = .ok d := by decide +kernel
  refine ⟨⟨_, hd⟩, by decide, ?_⟩
  rintro ⟨d', hparse, hmal, -⟩
  have hbroken : (parse (d.applyFixes {} [.stripAnnotations]).render none).map (·.malformed) =
      .ok [.ofMalformed 2 ['c'] "Block has too few lines"] := by decide +kernel
  rw [hparse, Except.map, hmal] at hbroken
  cases hbroken

end Document

end CueCheck
