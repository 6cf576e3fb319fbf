import CueCheck.Proofs.IssueKinds
import CueCheck.Proofs.MonotoneRounding

/-!
Agreement among the checks: none of a subtitle's issues is told twice or contradicts another, so
that each count is the number of entries that have an issue of the kind.
-/

namespace CueCheck

open Binary64

theorem Binary64.divideNat_zero_finite (negative : Bool) (m : Nat) (k : Int) :
    divideNat 0 (finite negative m k) = finite negative 0 minExponent := by
  rw [divideNat]
  split
  · exact if_pos rfl
  · exact if_pos (Nat.zero_mul _)

namespace Entry

variable {rules : Rules} {e : Entry} {next? : Option Entry} {kind : IssueKind}

/-- The condition under which a check finds an issue of a kind in a subtitle. -/
def Applies (rules : Rules) (e : Entry) (next? : Option Entry) : IssueKind → Prop
  | .syntactic => e.stop ≤ e.start
  | .overlap => e.overlaps next? = true
  | .shortDuration => e.duration < rules.minDuration
  | .longDuration => rules.maxDuration < e.duration
  | .lineLength => ∃ line ∈ e.textLines, rules.maxLineLength < line.length
  | .readingSpeed => e.readingSpeed.toOption.any rules.maxSpeed.lt = true
  | .formatting => e.text = [] ∨ rules.maxLines < e.textLines.length

theorem mem_kinds_iff (hm : e.malformed = false) :
    kind ∈ e.kinds rules next? ↔ e.Applies rules next? kind := by
  cases kind <;> simp [kinds, hm, Applies]

theorem hasIssue_iff_applies (hm : e.malformed = false)
    (h : e.check rules next? = .ok e.issues) :
    e.hasIssue kind = true ↔ e.Applies rules next? kind :=
  (hasIssue_iff hm h).trans (mem_kinds_iff hm)

theorem textLines_of_text_eq_nil (h : e.text = []) : e.textLines = [[]] := by
  rw [textLines, h, Text.lines]

/-- Two checks share a kind, and a text that is empty has no more lines than one. -/
theorem nodup_kinds (hlines : 1 ≤ rules.maxLines) (next? : Option Entry) :
    (e.kinds rules next?).Nodup := by
  rw [List.nodup_iff_count_le_one]
  intro kind
  cases hm : e.malformed with
  | true =>
    rw [kinds, if_pos hm]
    exact List.nodup_iff_count_le_one.1 (List.nodup_singleton _) kind
  | false =>
    have hone : e.text = [] → ¬ rules.maxLines < e.textLines.length := by
      intro htext
      rw [textLines_of_text_eq_nil htext]
      exact Int.not_lt.2 hlines
    have hcheck (found : Prop) [Decidable found] : (if found then 1 else 0) ≤ 1 := by
      split <;> decide
    cases kind with
    | formatting =>
      by_cases htext : e.text = []
      · simp [kinds, hm, htext, hone htext]
      · simp [kinds, hm, htext, hcheck]
    | _ => simp [kinds, hm, hcheck]

theorem readingSpeed_of_duration_nonpos (h : e.duration ≤ 0) : e.readingSpeed = .ok .zero :=
  if_pos h

theorem readingSpeed_of_text_eq_nil (h : e.text = []) {speed : Binary64}
    (hspeed : e.readingSpeed = .ok speed) : speed = .zero := by
  by_cases hpos : 0 < e.duration
  · rw [readingSpeed_of_pos hpos, h] at hspeed
    cases hx : e.seconds with
    | error failure =>
      rw [hx] at hspeed
      cases hspeed
    | ok x =>
      obtain ⟨m, k, -, rfl⟩ := seconds_pos hpos hx
      rw [hx] at hspeed
      injection hspeed with hspeed
      rw [← hspeed]
      exact divideNat_zero_finite false m k
  · rw [readingSpeed_of_duration_nonpos (Int.not_lt.1 hpos)] at hspeed
    injection hspeed with hspeed
    exact hspeed.symm

theorem not_applies_readingSpeed (hmax : rules.maxSpeed.lt .zero = false)
    (h : ∀ speed, e.readingSpeed = .ok speed → speed = .zero) :
    ¬ e.Applies rules next? .readingSpeed := by
  intro hfast
  rw [Applies] at hfast
  cases hspeed : e.readingSpeed with
  | error failure =>
    rw [hspeed] at hfast
    cases hfast
  | ok speed =>
    rw [hspeed, h speed hspeed] at hfast
    exact Bool.false_ne_true (hmax.symm.trans hfast)

/-- The issues of a subtitle tell nothing twice and do not contradict each other. -/
structure Coherent (rules : Rules) (e : Entry) : Prop where
  distinct : (e.issues.map (·.kind)).Nodup
  inverted : e.hasIssue .syntactic = true →
    e.hasIssue .shortDuration = true ∧ e.hasIssue .longDuration = false ∧
      (rules.maxSpeed.lt .zero = false → e.hasIssue .readingSpeed = false)
  short_or_long : ¬ (e.hasIssue .shortDuration = true ∧ e.hasIssue .longDuration = true)
  textless : e.text = [] → e.hasIssue .formatting = true ∧
    (0 ≤ rules.maxLineLength → e.hasIssue .lineLength = false) ∧
      (rules.maxSpeed.lt .zero = false → e.hasIssue .readingSpeed = false)

theorem coherent_of_check (hlines : 1 ≤ rules.maxLines) (hmin : 1 ≤ rules.minDuration)
    (hmax : rules.minDuration ≤ rules.maxDuration) (hm : e.malformed = false)
    (h : e.check rules next? = .ok e.issues) : e.Coherent rules := by
  have hiff (kind : IssueKind) : e.hasIssue kind = true ↔ e.Applies rules next? kind :=
    hasIssue_iff_applies hm h
  have habsent {kind : IssueKind} (hnot : ¬ e.Applies rules next? kind) :
      e.hasIssue kind = false := Bool.eq_false_iff.2 fun hissue => hnot ((hiff kind).1 hissue)
  constructor
  · rw [kinds_of_check hm h]
    exact nodup_kinds hlines next?
  · intro hissue
    have hstop : e.stop ≤ e.start := (hiff .syntactic).1 hissue
    have hduration : e.duration ≤ 0 := by
      rw [duration]
      omega
    refine ⟨(hiff .shortDuration).2 ?_, habsent ?_, fun hspeed => habsent ?_⟩
    · exact Int.lt_of_le_of_lt hduration hmin
    · intro hlong
      rw [Applies] at hlong
      omega
    · apply not_applies_readingSpeed hspeed
      intro speed hs
      rw [readingSpeed_of_duration_nonpos hduration] at hs
      injection hs with hs
      exact hs.symm
  · rintro ⟨hissue, hissue'⟩
    have hshort : e.duration < rules.minDuration := (hiff .shortDuration).1 hissue
    have hlong : rules.maxDuration < e.duration := (hiff .longDuration).1 hissue'
    omega
  · intro htext
    refine ⟨(hiff .formatting).2 (.inl htext), fun hwidth => habsent ?_, fun hspeed => habsent ?_⟩
    · rintro ⟨line, hline, hlong⟩
      rw [textLines_of_text_eq_nil htext, List.mem_singleton] at hline
      rw [hline] at hlong
      exact absurd hlong (Int.not_lt.2 hwidth)
    · apply not_applies_readingSpeed hspeed
      intro speed hs
      exact readingSpeed_of_text_eq_nil htext hs

/-- Whether an entry adds to the count of a kind: a malformed block is a syntactic issue, whatever
issues it has. -/
def tells (kind : IssueKind) (e : Entry) : Bool :=
  if e.malformed then kind = .syntactic else e.hasIssue kind

theorem count_kind_eq_tells (kind : IssueKind) (hm : e.malformed = false)
    (hdistinct : (e.issues.map (·.kind)).Nodup) :
    (e.issues.map (·.kind)).count kind = if e.tells kind then 1 else 0 := by
  have hmem : kind ∈ e.issues.map (·.kind) ↔ e.tells kind = true := by
    rw [tells, hm, List.mem_map]
    simp [hasIssue]
  rw [hdistinct.count]
  simp only [hmem]

end Entry

section Counts

variable {rules : Rules} {es : List Entry}

/-- A pass of checks counts entries. -/
theorem get_eq_countP (hlines : 1 ≤ rules.maxLines) {counts : IssueCounts}
    (h : (checkEntries rules es).2 = .ok counts) (kind : IssueKind) :
    counts.get kind = (checkEntries rules es).1.countP (Entry.tells kind) := by
  induction es generalizing counts with
  | nil =>
    injection h with h
    rw [← h]
    cases kind <;> rfl
  | cons e es ih =>
    obtain ⟨later, hlater, hcases⟩ := checkEntries_cons_eq_ok h
    rcases hcases with ⟨hm, rfl, heq⟩ | ⟨issues, hm, hissues, rfl, heq⟩
    · rw [heq, List.countP_cons, IssueCounts.get_add, ih hlater, Entry.tells, if_pos hm]
      simp
    · have hdistinct : (issues.map (·.kind)).Nodup := by
        rw [Entry.kinds_of_check hm hissues]
        exact Entry.nodup_kinds hlines es.head?
      have hcount := Entry.count_kind_eq_tells (e := { e with issues }) kind hm hdistinct
      rw [heq, List.countP_cons, IssueCounts.get_addAll, ih hlater, hcount]

end Counts

namespace Document

/-- An analysis leaves subtitles with issues that agree, and counts the entries of each kind. -/
theorem coherent_of_analyze {rules : Rules} {d : Document} {counts : IssueCounts}
    (hlines : 1 ≤ rules.maxLines) (hmin : 1 ≤ rules.minDuration)
    (hmax : rules.minDuration ≤ rules.maxDuration) (h : (d.analyze rules).2 = .ok counts) :
    (∀ e ∈ (d.analyze rules).1.entries, e.malformed = false → e.Coherent rules) ∧
      ∀ kind, counts.get kind = (d.analyze rules).1.entries.countP (Entry.tells kind) := by
  constructor
  · intro e he hm
    obtain ⟨next?, hcheck⟩ := exists_check_of_mem h he hm
    exact Entry.coherent_of_check hlines hmin hmax hm hcheck
  · exact get_eq_countP hlines h

/-- A subtitle that is inverted and has no text, a crowded one that overlaps the next, a malformed
block, and a long one. -/
def troubled : Document where
  entries := [
    { index := 1, start := 5000, stop := 4000, text := [] },
    { index := 2, start := 6000, stop := 6900,
      text := "One line too many\nfor the eye\nin so short a time".toList },
    { index := 3, start := 6500, stop := 14000, text := "Three".toList },
    .ofMalformed 4 "4".toList "Block has too few lines"]

theorem coherent_of_analyze_troubled :
    ∃ counts : IssueCounts, (1 ≤ ({} : Rules).maxLines ∧ 1 ≤ ({} : Rules).minDuration ∧
        ({} : Rules).minDuration ≤ ({} : Rules).maxDuration) ∧
      (troubled.analyze {}).2 = .ok counts ∧
      counts = { syntactic := 2, overlap := 1, shortDuration := 2, longDuration := 1,
                 readingSpeed := 1, formatting := 2 } ∧
      (∀ e ∈ (troubled.analyze {}).1.entries, e.malformed = false → e.Coherent {}) ∧
      ∀ kind, counts.get kind = (troubled.analyze {}).1.entries.countP (Entry.tells kind) := by
  have hlines : 1 ≤ ({} : Rules).maxLines := by decide
  have hmin : 1 ≤ ({} : Rules).minDuration := by decide
  have hmax : ({} : Rules).minDuration ≤ ({} : Rules).maxDuration := by decide
  have h : (troubled.analyze {}).2 =
      .ok { syntactic := 2, overlap := 1, shortDuration := 2, longDuration := 1,
            readingSpeed := 1, formatting := 2 } := by decide +kernel
  exact ⟨_, ⟨hlines, hmin, hmax⟩, h, rfl, coherent_of_analyze hlines hmin hmax h⟩

end Document

end CueCheck
