import CueCheck.Proofs.DocumentReading
import CueCheck.Proofs.FixedEntries
import CueCheck.Proofs.IssueKinds

/-!
The timing fix: subtitles last long enough after it, and overlap only where the starts of two
neighbours are too close for that.
-/

namespace CueCheck

namespace Entry

variable {rules : Rules} {e next : Entry} {next? : Option Entry}

/-- Two subtitles of which the second starts before the first can have lasted long enough. -/
def TooClose (rules : Rules) (e next : Entry) : Prop :=
  e.malformed = false ∧ next.malformed = false ∧ next.start - e.start < rules.minDuration

instance (rules : Rules) (e next : Entry) : Decidable (e.TooClose rules next) :=
  inferInstanceAs (Decidable (_ ∧ _ ∧ _))

theorem le_fixedStop (rules : Rules) (e : Entry) (next? : Option Entry) :
    e.start + rules.minDuration ≤ e.fixedStop rules next? := by
  simp only [fixedStop]
  split <;> omega

theorem overlaps_iff :
    e.overlaps (some next) = true ↔
      e.malformed = false ∧ next.malformed = false ∧ next.start < e.stop := by
  simp only [overlaps, Bool.and_eq_true, Bool.not_eq_true', decide_eq_true_eq, and_assoc]

theorem clearedStop_le (hgap : 0 ≤ rules.overlapGap) : e.clearedStop rules next? ≤ e.stop := by
  cases next? with
  | none => exact Int.le_refl _
  | some next =>
    rw [clearedStop]
    split
    · next hover =>
      have := (overlaps_iff.1 hover).2.2
      omega
    · exact Int.le_refl _

theorem fixedStop_le (hgap : 0 ≤ rules.overlapGap) :
    e.fixedStop rules next? ≤ max e.stop (e.start + rules.minDuration) := by
  have hcut : e.clearedStop rules next? ≤ e.stop := clearedStop_le hgap
  simp only [fixedStop]
  split <;> omega

theorem clearedStop_le_start (hgap : 0 ≤ rules.overlapGap) (hm : e.malformed = false)
    (hn : next.malformed = false) : e.clearedStop rules (some next) ≤ next.start := by
  rw [clearedStop]
  split
  · omega
  · next hover =>
    rw [overlaps_iff] at hover
    have : ¬ next.start < e.stop := fun h => hover ⟨hm, hn, h⟩
    omega

/-- Of two subtitles, the cut takes back an overlap, and only the shortest duration renews it. -/
theorem lt_fixedStop_iff (hgap : 0 ≤ rules.overlapGap) (hm : e.malformed = false)
    (hn : next.malformed = false) :
    next.start < e.fixedStop rules (some next) ↔ next.start - e.start < rules.minDuration := by
  have := clearedStop_le_start hgap hm hn
  simp only [fixedStop]
  split <;> omega

theorem overlaps_fixed_iff (hgap : 0 ≤ rules.overlapGap) (later? : Option Entry) :
    (e.fixed rules .resolveTiming (some next)).overlaps
        (some (next.fixed rules .resolveTiming later?)) = true ↔
      e.TooClose rules next := by
  simp only [overlaps_iff, fixed_malformed, fixed_start, TooClose]
  refine and_congr_right fun hm => and_congr_right fun hn => ?_
  rw [fixed_of_subtitle hm]
  exact lt_fixedStop_iff hgap hm hn

theorem tooClose_fixed_iff {fix fix' : Fix} {later? : Option Entry} :
    (e.fixed rules fix next?).TooClose rules (next.fixed rules fix' later?) ↔
      e.TooClose rules next := by
  simp only [TooClose, fixed_malformed, fixed_start]

theorem le_duration_fixed (hm : e.malformed = false) :
    rules.minDuration ≤ (e.fixed rules .resolveTiming next?).duration := by
  have hlow := le_fixedStop rules e next?
  rw [fixed_of_subtitle hm]
  change rules.minDuration ≤ e.fixedStop rules next? - e.start
  omega

theorem duration_fixed_le (hgap : 0 ≤ rules.overlapGap) :
    (e.fixed rules .resolveTiming next?).duration ≤ max e.duration rules.minDuration := by
  rw [fixed]
  split
  · exact Int.le_max_left _ _
  · have hhigh : e.fixedStop rules next? ≤ max e.stop (e.start + rules.minDuration) :=
      fixedStop_le hgap
    change e.fixedStop rules next? - e.start ≤ max (e.stop - e.start) _
    omega

end Entry

namespace Document

variable {rules : Rules} {d : Document}

theorem overlapsAt_eq {i : Nat} {e : Entry} (he : d.entries[i]? = some e) :
    d.overlapsAt i = .ok (e.overlaps d.entries[i + 1]?) := by
  rw [overlapsAt, entryAfter?_eq_ok]
  cases d.entries[i + 1]? with
  | none => rfl
  | some next => exact congrArg (fun x => do return (← x).overlaps (some next)) (entryAt_eq_ok he)

/-- What the timing fix and the analysis after it make of a document. -/
structure Retimed (rules : Rules) (before after : Document) (counts : IssueCounts) : Prop where
  kept : after.entries.map Entry.slot = before.entries.map Entry.slot
  lasting : ∀ e ∈ after.subtitles, rules.minDuration ≤ e.duration
  short_eq : counts.shortDuration = 0
  syntactic_eq : counts.syntactic = after.malformed.length
  overlapsAt_iff : ∀ (i : Nat) (e : Entry), after.entries[i]? = some e → e.malformed = false →
    (after.overlapsAt i = .ok true ↔ ∃ next, after.entries[i + 1]? = some next ∧
      next.malformed = false ∧ next.start - e.start < rules.minDuration)
  overlap_eq : counts.overlap =
    (after.entries.zip after.entries.tail).countP fun (e, next) => e.TooClose rules next
  -- Malformed blocks keep what issues they had; no subtitle is reported as long that was not long.
  long_before : rules.minDuration ≤ rules.maxDuration → ∀ (i : Nat) (e e' : Entry),
    before.entries[i]? = some e → after.entries[i]? = some e' →
      e'.hasIssue .longDuration = true →
        (e.malformed = true ∧ e.hasIssue .longDuration = true) ∨
          (e.malformed = false ∧ rules.maxDuration < e.duration)

section Retiming

variable {counts : IssueCounts}

theorem le_duration_of_retimed {e : Entry}
    (h : e ∈ (Fix.resolveTiming.outcome rules d).1.subtitles) :
    rules.minDuration ≤ e.duration := by
  obtain ⟨hmem, hm⟩ := mem_subtitles.1 h
  obtain ⟨i, hi⟩ := List.getElem?_of_mem hmem
  obtain ⟨e, issues, -, rfl⟩ := Fix.exists_of_getElem?_outcome hi
  exact Entry.le_duration_fixed ((e.fixed_malformed _ _ _).symm.trans hm)

/-- Neighbours overlap after the timing fix exactly when they are too close. -/
theorem overlaps_iff_of_retimed (hgap : 0 ≤ rules.overlapGap) {i : Nat} {e next : Entry}
    (he : (Fix.resolveTiming.outcome rules d).1.entries[i]? = some e)
    (hn : (Fix.resolveTiming.outcome rules d).1.entries[i + 1]? = some next) :
    e.overlaps (some next) = true ↔ e.TooClose rules next := by
  obtain ⟨e, issues, -, rfl⟩ := Fix.exists_of_getElem?_outcome he
  obtain ⟨next, issues', hnext, rfl⟩ := Fix.exists_of_getElem?_outcome hn
  rw [hnext]
  exact (Entry.overlaps_fixed_iff hgap _).trans Entry.tooClose_fixed_iff.symm

theorem overlaps_iff_of_mem_zip (hgap : 0 ≤ rules.overlapGap) {p : Entry × Entry}
    (h : p ∈ (Fix.resolveTiming.outcome rules d).1.entries.zip
      (Fix.resolveTiming.outcome rules d).1.entries.tail) :
    p.1.overlaps (some p.2) = true ↔ p.1.TooClose rules p.2 := by
  obtain ⟨i, hi⟩ := List.getElem?_of_mem h
  obtain ⟨he, hn⟩ := List.getElem?_zip_eq_some.1 hi
  rw [List.getElem?_tail] at hn
  exact overlaps_iff_of_retimed hgap he hn

theorem countP_syntactic {entries : List Entry}
    (h : ∀ e ∈ entries, e.malformed = false → e.start < e.stop) :
    (entries.countP fun e => e.malformed || decide (e.stop ≤ e.start)) =
      (entries.filter (·.malformed)).length := by
  rw [← List.countP_eq_length_filter]
  refine List.countP_congr fun e he => ?_
  cases hm : e.malformed with
  | true => simp
  | false =>
    have hlasts := h e he hm
    simpa using hlasts

theorem overlapsAt_iff_of_retimed (hgap : 0 ≤ rules.overlapGap) {i : Nat} {e : Entry}
    (he : (Fix.resolveTiming.outcome rules d).1.entries[i]? = some e)
    (hm : e.malformed = false) :
    (Fix.resolveTiming.outcome rules d).1.overlapsAt i = .ok true ↔
      ∃ next, (Fix.resolveTiming.outcome rules d).1.entries[i + 1]? = some next ∧
        next.malformed = false ∧ next.start - e.start < rules.minDuration := by
  rw [overlapsAt_eq he, Except.ok.injEq]
  cases hn : (Fix.resolveTiming.outcome rules d).1.entries[i + 1]? with
  | none => simp [Entry.overlaps]
  | some next => simp [overlaps_iff_of_retimed hgap he hn, Entry.TooClose, hm]

theorem hasIssue_longDuration_iff {counts : IssueCounts} (h : (d.analyze rules).2 = .ok counts)
    {e : Entry} (he : e ∈ (d.analyze rules).1.subtitles) :
    e.hasIssue .longDuration = true ↔ rules.maxDuration < e.duration := by
  obtain ⟨hmem, hm⟩ := mem_subtitles.1 he
  obtain ⟨next?, hcheck⟩ := exists_check_of_mem h hmem hm
  rw [Entry.hasIssue_iff hm hcheck]
  simp [Entry.kinds, hm]

theorem long_before_retimed {counts : IssueCounts}
    (h : (Fix.resolveTiming.outcome rules d).2 = .ok counts)
    (hgap : 0 ≤ rules.overlapGap) (hmax : rules.minDuration ≤ rules.maxDuration) {i : Nat}
    {e e' : Entry} (he : d.entries[i]? = some e)
    (he' : (Fix.resolveTiming.outcome rules d).1.entries[i]? = some e')
    (hlong : e'.hasIssue .longDuration = true) :
    (e.malformed = true ∧ e.hasIssue .longDuration = true) ∨
      (e.malformed = false ∧ rules.maxDuration < e.duration) := by
  cases hm : e.malformed with
  | true =>
    rw [Fix.getElem?_outcome_of_malformed he hm] at he'
    injection he' with he'
    exact .inl ⟨rfl, he' ▸ hlong⟩
  | false =>
    refine .inr ⟨rfl, ?_⟩
    obtain ⟨original, issues, horiginal, heq⟩ := Fix.exists_of_getElem?_outcome he'
    rw [he] at horiginal
    injection horiginal with horiginal
    subst horiginal
    have hm' : e'.malformed = false := by
      rw [heq]
      exact (e.fixed_malformed rules _ _).trans hm
    have hduration : e'.duration = (e.fixed rules .resolveTiming d.entries[i + 1]?).duration := by
      rw [heq]
      rfl
    -- A stretch ends at the shortest duration, which is not long.
    have hle : (e.fixed rules .resolveTiming d.entries[i + 1]?).duration ≤
        max e.duration rules.minDuration := Entry.duration_fixed_le hgap
    rw [hasIssue_longDuration_iff h (mem_subtitles.2 ⟨List.mem_of_getElem? he', hm'⟩)] at hlong
    omega

/-- The outcome of the timing fix: an overlap stays only where two subtitles are too close. -/
theorem retimed_of_applyFix {confirmed : Bool} {d' : Document} {report : FixReport}
    (hmin : 1 ≤ rules.minDuration) (hgap : 0 ≤ rules.overlapGap)
    (h : d.applyFix rules Fix.resolveTiming.name.toList confirmed = (d', .ok report)) :
    Retimed rules d d' report.counts := by
  obtain ⟨rfl, hcounts, -, -⟩ := applyFix_eq_ok h
  have hget (kind : IssueKind) : report.counts.get kind =
      (issueKinds rules (Fix.resolveTiming.outcome rules d).1.entries).count kind :=
    (get_of_analyze hcounts kind).trans
      (congrArg (List.count kind) (issueKinds_analyze rules _).symm)
  constructor
  · exact Fix.map_slot_outcome rules d _
  · exact fun e => le_duration_of_retimed
  · refine (hget .shortDuration).trans ?_
    rw [count_shortDuration, List.countP_eq_zero]
    intro e he
    cases hm : e.malformed with
    | true => simp
    | false => simpa using le_duration_of_retimed (mem_subtitles.2 ⟨he, hm⟩)
  · refine (hget .syntactic).trans ?_
    rw [count_syntactic]
    apply countP_syntactic
    intro e he hm
    have hlasts := le_duration_of_retimed (mem_subtitles.2 ⟨he, hm⟩)
    rw [Entry.duration] at hlasts
    omega
  · exact fun i e => overlapsAt_iff_of_retimed hgap
  · refine (hget .overlap).trans ?_
    rw [count_overlap]
    refine List.countP_congr fun p hp => ?_
    rw [overlaps_iff_of_mem_zip hgap hp, decide_eq_true_eq]
  · exact fun hmax i e e' => long_before_retimed hcounts hgap hmax

end Retiming

/-- A subtitle too close to the next one, one that overlaps the next, one that ends before it starts
and comes before a malformed block, and a short one at the end. -/
def crowded : Document where
  entries := [
    { index := 1, start := 1000, stop := 5000, text := "One".toList },
    { index := 2, start := 1500, stop := 9000, text := "Two".toList },
    { index := 3, start := 4000, stop := 3000, text := "Three".toList },
    .ofMalformed 4 "4".toList "Block has too few lines",
    { index := 5, start := 5200, stop := 5300, text := "Five".toList }]

theorem retimed_crowded :
    ∃ d' report, (1 ≤ ({} : Rules).minDuration ∧ 0 ≤ ({} : Rules).overlapGap) ∧
      crowded.applyFix {} Fix.resolveTiming.name.toList false = (d', .ok report) ∧
      d'.entries.map (·.stop) = [2000, 3950, 5000, 0, 6200] ∧
      report.counts = { syntactic := 1, overlap := 1 } ∧
      Retimed {} crowded d' report.counts := by
  have hstops : (crowded.applyFix {} Fix.resolveTiming.name.toList false).1.entries.map (·.stop) =
      [2000, 3950, 5000, 0, 6200] := by decide +kernel
  have hreport : (crowded.applyFix {} Fix.resolveTiming.name.toList false).2 =
      .ok ⟨.resolveTiming, 4, { syntactic := 1, overlap := 1 }⟩ := by decide +kernel
  have h := Prod.ext (Eq.refl (crowded.applyFix {} Fix.resolveTiming.name.toList false).1) hreport
  exact ⟨_, _, ⟨by decide, by decide⟩, h, hstops, rfl,
    retimed_of_applyFix (by decide) (by decide) h⟩

end Document

end CueCheck
