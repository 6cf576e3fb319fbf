import CueCheck.Proofs.Spans
import CueCheck.Proofs.StrippedTexts
import CueCheck.Proofs.TimingFix
import CueCheck.Service.Endpoint

/-!
Fixes that are run again: once a fix has been run it finds nothing more to do, whatever other fixes
come after it, so that a list of fixes may as well be run without its repetitions.
-/

namespace CueCheck

namespace Entry

variable {rules : Rules} {e : Entry} {next? : Option Entry}

theorem clearedStop_of_not_overlaps (h : e.overlaps next? = false) :
    e.clearedStop rules next? = e.stop := by
  cases next? with
  | none => rfl
  | some next => rw [clearedStop, if_neg (by rw [h]; decide)]

theorem fixedStop_fixedStop (hgap : 0 ≤ rules.overlapGap) (e : Entry) (next? : Option Entry) :
    ({ e with stop := e.fixedStop rules next? } : Entry).fixedStop rules next? =
      e.fixedStop rules next? := by
  have hlow := le_fixedStop rules e next?
  cases hover : ({ e with stop := e.fixedStop rules next? } : Entry).overlaps next? with
  | false =>
    rw [fixedStop, clearedStop_of_not_overlaps hover]
    exact if_neg (by change ¬ e.fixedStop rules next? - e.start < _; omega)
  | true =>
    cases next? with
    | none => cases hover
    | some next =>
      -- Only a subtitle too close to the next one still overlaps it: cut again, it is stretched
      -- again to the end that it has.
      obtain ⟨hm, hn, hlt⟩ := overlaps_iff.1 hover
      have hclose : next.start - e.start < rules.minDuration :=
        (lt_fixedStop_iff (e := e) hgap hm hn).1 hlt
      have hcut : e.clearedStop rules (some next) ≤ next.start :=
        clearedStop_le_start (e := e) hgap hm hn
      have hstop : e.fixedStop rules (some next) = e.start + rules.minDuration :=
        if_pos (by omega)
      rw [fixedStop, clearedStop, if_pos hover, hstop]
      exact if_pos (by change next.start - rules.overlapGap - e.start < _; omega)

end Entry

namespace Fix

variable {rules : Rules} {e : Entry} {next? : Option Entry}

/-- Of the entry that follows a fix sees only the slot. -/
theorem newStop_congr {other? : Option Entry} (fix : Fix) (e : Entry)
    (h : next?.map Entry.slot = other?.map Entry.slot) :
    fix.newStop rules e next? = fix.newStop rules e other? := by
  cases fix with
  | resolveTiming =>
    cases next? with
    | none => cases other? with
      | none => rfl
      | some other => cases h
    | some next => cases other? with
      | none => cases h
      | some other =>
        simp only [Option.map_some, Option.some.injEq, Entry.slot, Prod.mk.injEq] at h
        rw [newStop, newStop, Entry.fixedStop, Entry.fixedStop, Entry.clearedStop,
          Entry.clearedStop, Entry.overlaps, Entry.overlaps, h.1, h.2]
  | stripAnnotations => rfl
  | stripMarkup => rfl

theorem newStop_newStop (hgap : 0 ≤ rules.overlapGap) {fix other : Fix}
    (h : fix = other ∨ fix.newStop rules e next? = e.stop) (text : Text) :
    fix.newStop rules { e with stop := other.newStop rules e next?, text } next? =
      other.newStop rules e next? := by
  cases fix with
  | resolveTiming =>
    cases other with
    | resolveTiming => exact Entry.fixedStop_fixedStop hgap e next?
    | stripAnnotations => exact h.resolve_left (by decide)
    | stripMarkup => exact h.resolve_left (by decide)
  | stripAnnotations => rfl
  | stripMarkup => rfl

theorem newText_newText {fix other : Fix} {t : Text} (h : fix = other ∨ fix.newText t = t) :
    fix.newText (other.newText t) = other.newText t := by
  cases fix with
  | resolveTiming => rfl
  | stripAnnotations =>
    apply Entry.AnnotationFree.withoutAnnotations_eq
    cases other with
    | resolveTiming => exact Entry.withoutAnnotations_eq_self_iff.1 (h.resolve_left (by decide))
    | stripAnnotations => exact Entry.annotationFree_withoutAnnotations t
    | stripMarkup =>
      exact (Entry.withoutAnnotations_eq_self_iff.1 (h.resolve_left (by decide))).withoutMarkup
  | stripMarkup =>
    apply Entry.MarkupFree.withoutMarkup_eq
    cases other with
    | resolveTiming => exact Entry.withoutMarkup_eq_self_iff.1 (h.resolve_left (by decide))
    | stripAnnotations =>
      exact (Entry.withoutMarkup_eq_self_iff.1 (h.resolve_left (by decide))).withoutAnnotations
    | stripMarkup => exact Entry.markupFree_withoutMarkup t

end Fix

/-- An entry that a fix has fixed or left alone, it leaves alone after any fix. -/
theorem Entry.fixed_fixed {rules : Rules} {e : Entry} {next? : Option Entry}
    (hgap : 0 ≤ rules.overlapGap) {fix other : Fix}
    (h : fix = other ∨ e.fixed rules fix next? = e) :
    (e.fixed rules other next?).fixed rules fix next? = e.fixed rules other next? := by
  cases hm : e.malformed with
  | true => rw [fixed_of_malformed hm, fixed_of_malformed hm]
  | false =>
    have hsame : fix = other ∨ fix.newStop rules e next? = e.stop ∧ fix.newText e.text = e.text :=
      h.imp_right fun he => ((fixed_eq_self_iff ..).1 he).resolve_left (by rw [hm]; decide)
    rw [fixed_of_subtitle hm, fixed_eq_self_iff]
    exact .inr ⟨Fix.newStop_newStop hgap (hsame.imp_right And.left) _,
      Fix.newText_newText (hsame.imp_right And.right)⟩

/-- A fix has nothing to do in any entry of the document. -/
def Document.Settled (rules : Rules) (fix : Fix) (d : Document) : Prop :=
  ∀ (i : Nat) (e : Entry), d.entries[i]? = some e → e.fixed rules fix d.entries[i + 1]? = e

section Settled

variable {rules : Rules} {fix : Fix} {d : Document}

theorem Entry.fixed_setIssues (e : Entry) (next? : Option Entry) (issues : List Issue) :
    ({ e with issues } : Entry).fixed rules fix next? =
      { e.fixed rules fix next? with issues } := by
  rw [fixed, fixed]
  split <;> rfl

theorem Document.settled_outcome (hgap : 0 ≤ rules.overlapGap) {other : Fix}
    (h : fix = other ∨ d.Settled rules fix) : (other.outcome rules d).1.Settled rules fix := by
  intro i e' he'
  obtain ⟨e, issues, he, rfl⟩ := Fix.exists_of_getElem?_outcome he'
  -- The fix sees the next entry's slot only, and that is the same before and after.
  have hnext := congrArg (·[i + 1]?) (Fix.map_slot_outcome rules d other)
  simp only [List.getElem?_map] at hnext
  rw [Entry.fixed_setIssues, Entry.fixed, Fix.newStop_congr fix _ hnext, ← Entry.fixed,
    Entry.fixed_fixed hgap (h.imp_right fun hd => hd i e he)]

theorem Document.Settled.run_eq (h : d.Settled rules fix) : fix.run rules d = (d, 0) := by
  have hentries : (fix.run rules d).1.entries = d.entries := by
    apply List.ext_getElem?
    intro i
    rw [Fix.getElem?_run]
    cases he : d.entries[i]? with
    | none => rfl
    | some e => rw [Option.map_some, h i e he]
  have hchanged : (fix.run rules d).2 = 0 := by
    rw [Fix.run_snd, hentries, List.zip, List.zipWith_self, List.countP_map, List.countP_eq_zero]
    simp
  have hdocument : (fix.run rules d).1 = { d with entries := (fix.run rules d).1.entries } := rfl
  exact Prod.ext (hdocument.trans (by rw [hentries])) hchanged

theorem Document.settled_applyFix (hgap : 0 ≤ rules.overlapGap) {other : Fix}
    (h : fix = other ∨ d.Settled rules fix) :
    (d.applyFix rules other.name.toList true).1.Settled rules fix := by
  rw [applyFix_fst]
  exact settled_outcome hgap h

theorem Document.settled_applyFixes (hgap : 0 ≤ rules.overlapGap) {done : List Fix}
    (h : fix ∈ done ∨ d.Settled rules fix) : (d.applyFixes rules done).Settled rules fix := by
  induction done generalizing d with
  | nil => exact h.resolve_left List.not_mem_nil
  | cons first done ih =>
    rw [List.mem_cons] at h
    rcases h with (rfl | hlater) | hsettled
    · exact ih (.inr (settled_applyFix hgap (.inl rfl)))
    · exact ih (.inl hlater)
    · exact ih (.inr (settled_applyFix hgap (.inr hsettled)))

theorem Document.analyze_applyFixes {done : List Fix} (h : done ≠ []) :
    ((d.applyFixes rules done).analyze rules).1 = d.applyFixes rules done := by
  obtain ⟨init, last, rfl⟩ := (List.eq_nil_or_concat' done).resolve_left h
  rw [applyFixes, List.foldl_append, List.foldl_cons, List.foldl_nil, applyFix_fst,
    analyze_analyze]

theorem Fix.apply_eq (rules : Rules) (d : Document) (fix : Fix) :
    fix.apply rules d = ((fix.outcome rules d).1,
      (fix.outcome rules d).2.map fun counts => ⟨fix, (fix.run rules d).2, counts⟩) := rfl

theorem Document.Settled.applyFix_eq (h : d.Settled rules fix) :
    d.applyFix rules fix.name.toList true =
      ((d.analyze rules).1, (d.analyze rules).2.map fun counts => ⟨fix, 0, counts⟩) := by
  rw [applyFix, Fix.permitted_name]
  change fix.apply rules d = _
  rw [Fix.apply_eq, Fix.outcome, h.run_eq]

end Settled

namespace Session

variable {s s' : Session} {fix : Fix}

/-- A fix has nothing to do in the loaded document, whose issues and counts are current. -/
def HasRun (s : Session) (fix : Fix) : Prop :=
  ∃ loaded, s.loaded = some loaded ∧ loaded.document.Settled s.rules fix ∧
    loaded.document.analyze s.rules = (loaded.document, .ok loaded.counts)

theorem fix_of_loaded {loaded : Loaded} (h : s.loaded = some loaded) (word : Text)
    (confirmed : Bool) {d : Document} {report : FixReport}
    (hd : loaded.document.applyFix s.rules word confirmed = (d, .ok report)) :
    s.fix word confirmed =
      ({ s with loaded := some { loaded with document := d, counts := report.counts } },
        .ok report) := by
  simp only [Session.fix, current, h, hd]

theorem fix_eq_ok {report : FixReport} (h : s.fix fix.name.toList true = (s', .ok report)) :
    ∃ loaded, s.loaded = some loaded ∧
      (fix.outcome s.rules loaded.document).2 = .ok report.counts ∧
      s' = { s with loaded := some { loaded with
        document := (fix.outcome s.rules loaded.document).1, counts := report.counts } } := by
  cases hloaded : s.loaded with
  | none =>
    rw [Session.fix, current, hloaded] at h
    cases h
  | some loaded =>
    cases hd : loaded.document.applyFix s.rules fix.name.toList true with
    | mk d result =>
      simp only [Session.fix, current, hloaded, hd, Prod.mk.injEq] at h
      obtain ⟨rfl, rfl⟩ := h
      obtain ⟨rfl, hcounts, -, -⟩ := Document.applyFix_eq_ok hd
      exact ⟨loaded, rfl, hcounts, rfl⟩

theorem rules_of_fix {report : FixReport} (h : s.fix fix.name.toList true = (s', .ok report)) :
    s'.rules = s.rules := by
  obtain ⟨loaded, -, -, rfl⟩ := fix_eq_ok h
  rfl

theorem hasRun_of_fix {report : FixReport} {other : Fix} (hgap : 0 ≤ s.rules.overlapGap)
    (h : s.fix other.name.toList true = (s', .ok report)) (hfix : fix = other ∨ s.HasRun fix) :
    s'.HasRun fix := by
  obtain ⟨loaded, hloaded, hcounts, rfl⟩ := fix_eq_ok h
  refine ⟨_, rfl, ?_, ?_⟩
  · apply Document.settled_outcome hgap
    refine hfix.imp_right ?_
    rintro ⟨loaded', hloaded', hsettled, -⟩
    rw [hloaded] at hloaded'
    injection hloaded' with hsame
    exact hsame ▸ hsettled
  · rw [← hcounts]
    exact Document.analyze_analyze _ _

theorem HasRun.fix_eq (h : s.HasRun fix) :
    ∃ report, s.fix fix.name.toList true = (s, .ok report) ∧ report.changed = 0 := by
  obtain ⟨loaded, hloaded, hsettled, hanalyzed⟩ := h
  have hd := hsettled.applyFix_eq
  rw [hanalyzed] at hd
  refine ⟨⟨fix, 0, loaded.counts⟩, ?_, rfl⟩
  rw [fix_of_loaded hloaded _ _ hd, ← hloaded]

end Session

namespace Service

variable {s : Session} {changes : List (Fix × Nat)} {fix : Fix}

theorem addChange_zero (h : fix ∈ changes.map Prod.fst) : addChange fix 0 changes = changes := by
  induction changes with
  | nil => cases h
  | cons change changes ih =>
    obtain ⟨other, n⟩ := change
    rw [addChange]
    split
    · rfl
    · next hother =>
      rcases List.mem_cons.1 h with heq | hmem
      · exact absurd heq.symm hother
      · rw [ih hmem]

theorem mem_addChange {other : Fix} (n : Nat) (h : fix = other ∨ fix ∈ changes.map Prod.fst) :
    fix ∈ (addChange other n changes).map Prod.fst := by
  induction changes with
  | nil => simpa [addChange] using h
  | cons change changes ih =>
    obtain ⟨first, m⟩ := change
    rw [List.map_cons, List.mem_cons] at h
    rw [addChange]
    split
    · next hfirst =>
      rw [List.map_cons, List.mem_cons, hfirst]
      rw [hfirst] at h
      exact h.elim .inl id
    · rw [List.map_cons, List.mem_cons]
      rcases h with h | h | h
      · exact .inr (ih (.inl h))
      · exact .inl h
      · exact .inr (ih (.inr h))

theorem runFixes_cons_of_ok {report : FixReport} {s' : Session}
    (h : s.fix fix.name.toList true = (s', .ok report)) (fixes : List Fix) :
    runFixes s changes (fix :: fixes) =
      runFixes s' (addChange fix report.changed changes) fixes := by
  rw [runFixes, h]

theorem runFixes_cons_of_error {failure : Failure} {s' : Session}
    (h : s.fix fix.name.toList true = (s', .error failure)) (fixes : List Fix) :
    runFixes s changes (fix :: fixes) = .error failure := by
  rw [runFixes, h]

/-- A fix that has run may be left out of those to come. -/
theorem runFixes_filter (hgap : 0 ≤ s.rules.overlapGap) (h : s.HasRun fix)
    (hmem : fix ∈ changes.map Prod.fst) (fixes : List Fix) :
    runFixes s changes fixes = runFixes s changes (fixes.filter fun other => !other == fix) := by
  induction fixes generalizing s changes with
  | nil => rfl
  | cons other fixes ih =>
    by_cases hother : other = fix
    · subst hother
      obtain ⟨report, hfix, hchanged⟩ := h.fix_eq
      rw [List.filter_cons_of_neg (by simp), runFixes_cons_of_ok hfix, hchanged,
        addChange_zero hmem, ih hgap h hmem]
    · rw [List.filter_cons_of_pos (by simpa using hother)]
      cases hfix : s.fix other.name.toList true with
      | mk s' result =>
        cases result with
        | error failure => rw [runFixes_cons_of_error hfix, runFixes_cons_of_error hfix]
        | ok report =>
          have hgap' : 0 ≤ s'.rules.overlapGap := Session.rules_of_fix hfix ▸ hgap
          rw [runFixes_cons_of_ok hfix, runFixes_cons_of_ok hfix]
          exact ih hgap' (Session.hasRun_of_fix hgap hfix (.inr h)) (mem_addChange _ (.inr hmem))

theorem runFixes_eraseDups {s : Session} (hgap : 0 ≤ s.rules.overlapGap)
    (changes : List (Fix × Nat)) (fixes : List Fix) :
    runFixes s changes fixes = runFixes s changes fixes.eraseDups := by
  -- The recursion is on the length: without one of its fixes, the list is no part of itself.
  match fixes with
  | [] => rfl
  | fix :: fixes =>
    rw [List.eraseDups_cons]
    cases hfix : s.fix fix.name.toList true with
    | mk s' result =>
      cases result with
      | error failure => rw [runFixes_cons_of_error hfix, runFixes_cons_of_error hfix]
      | ok report =>
        have hgap' : 0 ≤ s'.rules.overlapGap := Session.rules_of_fix hfix ▸ hgap
        have hshorter : (fixes.filter fun other => !other == fix).length < fixes.length + 1 :=
          Nat.lt_succ_of_le (List.length_filter_le _ _)
        rw [runFixes_cons_of_ok hfix, runFixes_cons_of_ok hfix, runFixes_filter hgap'
          (Session.hasRun_of_fix hgap hfix (.inl rfl)) (mem_addChange _ (.inl rfl))]
        exact runFixes_eraseDups hgap' _ _
termination_by fixes.length

end Service

namespace Document

/-- A fix that has been run before, whatever has been run since, changes nothing and counts the
issues again; and to run a list of fixes is to run it without its repetitions. -/
theorem applyFix_of_mem {rules : Rules} (hgap : 0 ≤ rules.overlapGap) :
    (∀ (d : Document) (done : List Fix), ∀ fix ∈ done,
      (d.applyFixes rules done).applyFix rules fix.name.toList true =
        (d.applyFixes rules done, ((d.applyFixes rules done).analyze rules).2.map
          fun counts => ⟨fix, 0, counts⟩)) ∧
    ∀ (loaded : Option Loaded) (fixes : List Fix),
      Service.runFixes ⟨rules, loaded⟩ [] fixes =
        Service.runFixes ⟨rules, loaded⟩ [] fixes.eraseDups := by
  constructor
  · intro d done fix hfix
    have hsettled : (d.applyFixes rules done).Settled rules fix :=
      settled_applyFixes hgap (.inl hfix)
    rw [hsettled.applyFix_eq, analyze_applyFixes (List.ne_nil_of_mem hfix)]
  · intro loaded fixes
    exact Service.runFixes_eraseDups (s := ⟨rules, loaded⟩) hgap [] fixes

/-- Two subtitles too close to one another, with an annotation that has half of a markup in it and
a markup around an annotation. -/
def annotated : Document where
  entries := [
    { index := 1, start := 1000, stop := 5000, text := "[door] <Who (is> there)".toList },
    { index := 2, start := 1500, stop := 1600, text := "<i>(no)</i>".toList }]

theorem applyFix_of_mem_annotated :
    let done : List Fix := [.stripAnnotations, .resolveTiming, .stripMarkup]
    let before := annotated.applyFixes {} done
    let fixes : List Fix := done ++ done.reverse
    let s : Session := ⟨{}, some ⟨annotated, {}, []⟩⟩
    0 ≤ ({} : Rules).overlapGap ∧ Fix.stripAnnotations ∈ done ∧
      before.entries.map (fun e => (e.stop, e.text)) = [(2000, "<Who".toList), (2500, [])] ∧
      before.applyFix {} Fix.stripAnnotations.name.toList true =
        (before, .ok ⟨.stripAnnotations, 0, { overlap := 1, formatting := 1 }⟩) ∧
      (Service.runFixes s [] fixes).map Prod.snd =
        .ok [(.stripAnnotations, 2), (.resolveTiming, 2), (.stripMarkup, 1)] := by
  intro done before fixes s
  have hgap : 0 ≤ ({} : Rules).overlapGap := by decide
  have hmem : Fix.stripAnnotations ∈ done := by decide
  have hentries : before.entries.map (fun e => (e.stop, e.text)) =
      [(2000, "<Who".toList), (2500, [])] := by decide +kernel
  have hcounts : (before.analyze {}).2 = .ok { overlap := 1, formatting := 1 } := by
    decide +kernel
  have hdups : fixes.eraseDups = done := by decide +kernel
  refine ⟨hgap, hmem, hentries, ?_, ?_⟩
  · rw [(applyFix_of_mem hgap).1 annotated done _ hmem, hcounts]
    rfl
  · rw [(applyFix_of_mem hgap).2, hdups]
    decide +kernel

end Document

end CueCheck
