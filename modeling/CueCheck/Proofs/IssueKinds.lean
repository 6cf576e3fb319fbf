import CueCheck.Proofs.CurrentIssues
import CueCheck.Proofs.Results

/-!
The kinds of issues in a document: what a check finds in a subtitle, and what the counts of an
analysis are the numbers of.
-/

namespace CueCheck

/-- A kind of issue, found if a condition holds. -/
def IssueKind.when (kind : IssueKind) (found : Prop) [Decidable found] : List IssueKind :=
  if found then [kind] else []

section When

variable {kind other : IssueKind} {found : Prop} [Decidable found]

theorem IssueKind.when_pos (h : found) : kind.when found = [kind] := if_pos h

theorem IssueKind.when_neg (h : ¬ found) : kind.when found = [] := if_neg h

@[simp] theorem IssueKind.count_when :
    (kind.when found).count other = if found ∧ kind = other then 1 else 0 := by
  by_cases hf : found
  · rw [when_pos hf]
    simp [hf, List.count_cons]
  · rw [when_neg hf]
    simp [hf]

@[simp] theorem IssueKind.mem_when : other ∈ kind.when found ↔ found ∧ other = kind := by
  by_cases hf : found
  · rw [when_pos hf]
    simp [hf]
  · rw [when_neg hf]
    simp [hf]

end When

namespace Entry

variable {rules : Rules} {e : Entry} {next? : Option Entry}

/-- The kinds of the issues of an entry that another one may follow, in the order of reports. -/
def kinds (rules : Rules) (e : Entry) (next? : Option Entry) : List IssueKind :=
  if e.malformed then [.syntactic]
  else
    IssueKind.syntactic.when (e.stop ≤ e.start) ++ IssueKind.formatting.when (e.text = []) ++
      IssueKind.overlap.when (e.overlaps next? = true) ++
      IssueKind.shortDuration.when (e.duration < rules.minDuration) ++
      IssueKind.longDuration.when (rules.maxDuration < e.duration) ++
      IssueKind.lineLength.when (∃ line ∈ e.textLines, rules.maxLineLength < line.length) ++
      IssueKind.readingSpeed.when (e.readingSpeed.toOption.any rules.maxSpeed.lt = true) ++
      IssueKind.formatting.when (rules.maxLines < e.textLines.length)

theorem check_eq_ok {issues : List Issue} (h : e.check rules next? = .ok issues) :
    ∃ long fast, e.longIssues rules = .ok long ∧ e.speedIssues rules = .ok fast ∧
      issues = e.structuralIssues ++ e.overlapIssues next? ++ e.shortIssues rules ++ long ++
        e.lineLengthIssues rules ++ fast ++ e.lineCountIssues rules := by
  rw [check] at h
  obtain ⟨long, hlong, h⟩ := exists_of_bind_eq_ok h
  obtain ⟨fast, hfast, h⟩ := exists_of_bind_eq_ok h
  injection h with h
  exact ⟨long, fast, hlong, hfast, h.symm⟩

theorem kinds_of_longIssues {issues : List Issue} (h : e.longIssues rules = .ok issues) :
    issues.map (·.kind) = IssueKind.longDuration.when (rules.maxDuration < e.duration) := by
  rw [longIssues] at h
  split at h
  · next hlong =>
    obtain ⟨seconds, -, h⟩ := exists_of_bind_eq_ok h
    obtain ⟨shown, -, h⟩ := exists_of_bind_eq_ok h
    injection h with h
    rw [← h, IssueKind.when_pos hlong]
    rfl
  · next hlong =>
    injection h with h
    rw [← h, IssueKind.when_neg hlong]
    rfl

theorem kinds_of_speedIssues {issues : List Issue} (h : e.speedIssues rules = .ok issues) :
    issues.map (·.kind) =
      IssueKind.readingSpeed.when (e.readingSpeed.toOption.any rules.maxSpeed.lt = true) := by
  rw [speedIssues] at h
  obtain ⟨speed, hspeed, h⟩ := exists_of_bind_eq_ok h
  have hany : e.readingSpeed.toOption.any rules.maxSpeed.lt = rules.maxSpeed.lt speed := by
    rw [hspeed]
    rfl
  split at h
  · next hfast =>
    obtain ⟨shown, -, h⟩ := exists_of_bind_eq_ok h
    injection h with h
    rw [← h, IssueKind.when_pos (hany.trans hfast)]
    rfl
  · next hslow =>
    injection h with h
    rw [← h, IssueKind.when_neg (hany ▸ hslow)]
    rfl

theorem kinds_of_structuralIssues (e : Entry) :
    e.structuralIssues.map (·.kind) =
      IssueKind.syntactic.when (e.stop ≤ e.start) ++ IssueKind.formatting.when (e.text = []) := by
  rw [structuralIssues, List.map_append, IssueKind.when, IssueKind.when]
  simp only [List.isEmpty_iff]
  split <;> split <;> rfl

theorem kinds_of_overlapIssues (e : Entry) (next? : Option Entry) :
    (e.overlapIssues next?).map (·.kind) =
      IssueKind.overlap.when (e.overlaps next? = true) := by
  rw [overlapIssues, IssueKind.when]
  split <;> rfl

theorem kinds_of_shortIssues (rules : Rules) (e : Entry) :
    (e.shortIssues rules).map (·.kind) =
      IssueKind.shortDuration.when (e.duration < rules.minDuration) := by
  rw [shortIssues, IssueKind.when]
  split <;> rfl

theorem kinds_of_lineLengthIssues (rules : Rules) (e : Entry) :
    (e.lineLengthIssues rules).map (·.kind) =
      IssueKind.lineLength.when (∃ line ∈ e.textLines, rules.maxLineLength < line.length) := by
  rw [lineLengthIssues, IssueKind.when]
  simp only [List.any_eq_true, decide_eq_true_eq]
  split <;> rfl

theorem kinds_of_lineCountIssues (rules : Rules) (e : Entry) :
    (e.lineCountIssues rules).map (·.kind) =
      IssueKind.formatting.when (rules.maxLines < e.textLines.length) := by
  rw [lineCountIssues, IssueKind.when]
  split <;> rfl

/-- A check that succeeds finds issues of the kinds whose conditions hold. -/
theorem kinds_of_check {issues : List Issue} (hm : e.malformed = false)
    (h : e.check rules next? = .ok issues) : issues.map (·.kind) = e.kinds rules next? := by
  obtain ⟨long, fast, hlong, hfast, rfl⟩ := check_eq_ok h
  simp only [List.map_append, kinds_of_structuralIssues, kinds_of_overlapIssues,
    kinds_of_shortIssues, kinds_of_longIssues hlong, kinds_of_lineLengthIssues,
    kinds_of_speedIssues hfast, kinds_of_lineCountIssues, kinds, hm, Bool.false_eq_true, if_false]

theorem hasIssue_iff {kind : IssueKind} (hm : e.malformed = false)
    (h : e.check rules next? = .ok e.issues) :
    e.hasIssue kind = true ↔ kind ∈ e.kinds rules next? := by
  rw [← kinds_of_check hm h, hasIssue, List.any_eq_true, List.mem_map]
  simp only [decide_eq_true_eq]

theorem kinds_bare (rules : Rules) (e : Entry) (next? : Option Entry) :
    e.bare.kinds rules (next?.map bare) = e.kinds rules next? := by
  cases next? <;> rfl

end Entry

/-- The kinds of the issues of entries in a row. -/
def issueKinds (rules : Rules) : List Entry → List IssueKind
  | [] => []
  | e :: rest => e.kinds rules rest.head? ++ issueKinds rules rest

section Counts

variable {rules : Rules} {es : List Entry}

theorem issueKinds_map_bare (rules : Rules) (es : List Entry) :
    issueKinds rules (es.map Entry.bare) = issueKinds rules es := by
  induction es with
  | nil => rfl
  | cons e es ih => rw [List.map_cons, issueKinds, issueKinds, ih, List.head?_map, Entry.kinds_bare]

/-- A pass of checks that succeeds leaves each subtitle with the issues of a check. -/
theorem exists_check_of_mem {counts : IssueCounts} (h : (checkEntries rules es).2 = .ok counts)
    {e : Entry} (he : e ∈ (checkEntries rules es).1) (hm : e.malformed = false) :
    ∃ next?, e.check rules next? = .ok e.issues := by
  induction es generalizing counts with
  | nil => cases he
  | cons first es ih =>
    obtain ⟨later, hlater, hcases⟩ := checkEntries_cons_eq_ok h
    rcases hcases with ⟨hm', -, heq⟩ | ⟨issues, -, hissues, -, heq⟩
    · rw [heq] at he
      rcases List.mem_cons.1 he with rfl | he
      · rw [hm] at hm'
        cases hm'
      · exact ih hlater he
    · rw [heq] at he
      rcases List.mem_cons.1 he with rfl | he
      · exact ⟨es.head?, hissues⟩
      · exact ih hlater he

theorem get_of_checkEntries {counts : IssueCounts} (h : (checkEntries rules es).2 = .ok counts)
    (kind : IssueKind) : counts.get kind = (issueKinds rules es).count kind := by
  induction es generalizing counts with
  | nil =>
    injection h with h
    rw [← h]
    cases kind <;> rfl
  | cons e es ih =>
    obtain ⟨later, hlater, hcases⟩ := checkEntries_cons_eq_ok h
    rw [issueKinds, List.count_append, ← ih hlater, Nat.add_comm]
    rcases hcases with ⟨hm, rfl, -⟩ | ⟨issues, hm, hissues, rfl, -⟩
    · rw [IssueCounts.get_add, Entry.kinds, if_pos hm]
      cases kind <;> rfl
    · rw [IssueCounts.get_addAll, Entry.kinds_of_check hm hissues]

theorem Document.get_of_analyze {d : Document} {counts : IssueCounts}
    (h : (d.analyze rules).2 = .ok counts) (kind : IssueKind) :
    counts.get kind = (issueKinds rules d.entries).count kind := get_of_checkEntries h kind

theorem Document.issueKinds_analyze (rules : Rules) (d : Document) :
    issueKinds rules (d.analyze rules).1.entries = issueKinds rules d.entries := by
  rw [← issueKinds_map_bare, ← issueKinds_map_bare rules d.entries]
  exact congrArg (issueKinds rules) (map_bare_checkEntries rules d.entries)

theorem count_syntactic (rules : Rules) (es : List Entry) :
    (issueKinds rules es).count .syntactic =
      es.countP fun e => e.malformed || decide (e.stop ≤ e.start) := by
  induction es with
  | nil => rfl
  | cons e es ih =>
    rw [issueKinds, List.count_append, ih, List.countP_cons, Nat.add_comm]
    cases hm : e.malformed with
    | true => simp [Entry.kinds, hm]
    | false => simp [Entry.kinds, hm]

theorem count_shortDuration (rules : Rules) (es : List Entry) :
    (issueKinds rules es).count .shortDuration =
      es.countP fun e => !e.malformed && decide (e.duration < rules.minDuration) := by
  induction es with
  | nil => rfl
  | cons e es ih =>
    rw [issueKinds, List.count_append, ih, List.countP_cons, Nat.add_comm]
    cases hm : e.malformed with
    | true => simp [Entry.kinds, hm]
    | false => simp [Entry.kinds, hm]

theorem count_overlap (rules : Rules) (es : List Entry) :
    (issueKinds rules es).count .overlap =
      (es.zip es.tail).countP fun p => p.1.overlaps (some p.2) := by
  induction es with
  | nil => rfl
  | cons e es ih =>
    have hkinds (next? : Option Entry) :
        (e.kinds rules next?).count .overlap = if e.overlaps next? then 1 else 0 := by
      cases hm : e.malformed with
      | true => cases next? <;> simp [Entry.kinds, Entry.overlaps, hm]
      | false => simp [Entry.kinds, hm]
    rw [issueKinds, List.count_append, ih, hkinds]
    cases es with
    | nil => rfl
    | cons next es =>
      change _ = ((e, next) :: (next :: es).zip es).countP _
      rw [List.countP_cons, Nat.add_comm]
      rfl

end Counts

end CueCheck
