import CueCheck.Proofs.Passes
import CueCheck.Proofs.Rounding

/-!
Issues and counts that are up to date: a check of a subtitle of moderate size cannot fail, and a
pass of checks leaves each subtitle with the issues that a new check would find.
-/

namespace CueCheck

open Binary64

namespace Entry

/-- The entry has times and a text of a size at which checks cannot fail. -/
structure Moderate (e : Entry) : Prop where
  start_nonneg : 0 ≤ e.start
  start_lt : e.start < 362440000
  stop_ge : -10 ^ 12 ≤ e.stop
  stop_lt : e.stop < 10 ^ 12 + 362440000
  text_length : e.text.length < 2 ^ 69

/-- The entry of a block that is no subtitle: no times, no text and one issue. -/
structure IsLost (e : Entry) : Prop where
  start_eq : e.start = 0
  stop_eq : e.stop = 0
  text_eq : e.text = []
  issues_eq : ∃ message, e.issues = [⟨.syntactic, message⟩]

theorem isLost_ofMalformed (index : Int) (raw : Text) (message : String) :
    (ofMalformed index raw message).IsLost :=
  ⟨rfl, rfl, rfl, message, rfl⟩

theorem isLost_of_subtitle {e : Entry} (hm : e.malformed = false) :
    e.malformed = true → e.IsLost := by
  intro h
  rw [hm] at h
  cases h

theorem IsLost.moderate {e : Entry} (h : e.IsLost) : e.Moderate := by
  constructor
  · exact Int.le_of_eq h.start_eq.symm
  · rw [h.start_eq]; decide
  · rw [h.stop_eq]; decide
  · rw [h.stop_eq]; decide
  · rw [h.text_eq]; decide

/-- The issues of an entry are those of a check with the entry after it. -/
structure IsCurrent (rules : Rules) (e : Entry) (next? : Option Entry) : Prop where
  lost : e.malformed = true → e.IsLost
  checked : e.malformed = false → e.check rules next? = .ok e.issues

theorem log2_thousand : Nat.log2 1000 = 9 := by
  decide +kernel

section Totality

variable {e : Entry}

theorem Moderate.duration_lt (h : e.Moderate) : e.duration.natAbs < 2 ^ 40 := by
  have h₁ := h.start_nonneg
  have h₂ := h.start_lt
  have h₃ := h.stop_ge
  have h₄ := h.stop_lt
  rw [duration]
  omega

theorem magnitude_duration_le (h : e.duration.natAbs < 2 ^ 40) :
    magnitude e.duration.natAbs 1000 ≤ 30 := by
  rw [magnitude, log2_thousand]
  by_cases hzero : e.duration.natAbs = 0
  · rw [hzero, Nat.log2_zero]
    decide
  · have hlog := (Nat.log2_lt hzero).2 h
    omega

theorem seconds_eq_ok (h : e.duration.natAbs < 2 ^ 40) :
    ∃ x, e.seconds = .ok x ∧ x.UpTo 33 ∧
      x = ofQuotient (e.duration < 0) e.duration.natAbs 1000 := by
  have hm := magnitude_duration_le h
  have hx : (ofQuotient (decide (e.duration < 0)) e.duration.natAbs 1000).UpTo 33 :=
    upTo_ofQuotient _ (by decide) (by decide) (by omega)
  refine ⟨_, ?_, hx, rfl⟩
  obtain ⟨neg, m, exponent, heq, -⟩ := hx.eq_finite
  rw [seconds, heq]

/-- A subtitle that is shown at all is shown for a thousandth of a second at least, so its speed
is not much larger than its text is long. -/
theorem readingSpeed_eq_ok (h : e.duration.natAbs < 2 ^ 40) (ht : e.text.length < 2 ^ 69) :
    ∃ x, e.readingSpeed = .ok x ∧ x.UpTo 33 := by
  rw [readingSpeed]
  split
  · exact ⟨_, rfl, by decide, by decide⟩
  · next hpos =>
    obtain ⟨x, hx, hup, heq⟩ := seconds_eq_ok h
    obtain ⟨neg, m, exponent, rfl, -⟩ := hup.eq_finite
    have hlow : -9 ≤ magnitude e.duration.natAbs 1000 := by
      rw [magnitude, log2_thousand]
      omega
    obtain ⟨hm, hsize⟩ := magnitude_le_of_ofQuotient (by omega) (by decide) (by omega) heq.symm
    have htext : e.text.length.log2 < 69 := by
      by_cases hzero : e.text.length = 0
      · rw [hzero, Nat.log2_zero]
        decide
      · exact (Nat.log2_lt hzero).2 ht
    rw [hx]
    exact ⟨_, rfl, upTo_divideNat hm (by decide) (by decide) (by omega)⟩

/-- A check fails only where a long duration or a high speed cannot be told, whatever follows. -/
theorem check_eq_ok_iff {rules : Rules} {next? : Option Entry} :
    (∃ issues, e.check rules next? = .ok issues) ↔
      (∃ long, e.longIssues rules = .ok long) ∧ ∃ fast, e.speedIssues rules = .ok fast := by
  rw [check]
  cases e.longIssues rules with
  | error failure => simp [bind, Except.bind]
  | ok long =>
    cases e.speedIssues rules with
    | error failure => simp [bind, Except.bind]
    | ok fast => simp [bind, Except.bind, pure, Except.pure]

/-- A check cannot fail where the duration and the text are not huge, whatever the rules. -/
theorem check_eq_ok_of_lt (h : e.duration.natAbs < 2 ^ 40) (ht : e.text.length < 2 ^ 69)
    (rules : Rules) (next? : Option Entry) : ∃ issues, e.check rules next? = .ok issues := by
  obtain ⟨x, hx, hup, -⟩ := seconds_eq_ok h
  obtain ⟨speed, hspeed, hslow⟩ := readingSpeed_eq_ok h ht
  obtain ⟨shownTime, htime⟩ := oneDecimal_eq_ok hup
  obtain ⟨shownSpeed, hshown⟩ := oneDecimal_eq_ok hslow
  refine check_eq_ok_iff.2 ⟨?_, ?_⟩
  · rw [longIssues]
    split
    · rw [hx]
      simp only [bind, Except.bind, htime]
      exact ⟨_, rfl⟩
    · exact ⟨_, rfl⟩
  · rw [speedIssues, hspeed]
    simp only [bind, Except.bind]
    split
    · rw [hshown]
      exact ⟨_, rfl⟩
    · exact ⟨_, rfl⟩

end Totality

/-- Of the next entry a check sees only whether it is overlapped. -/
theorem check_congr (rules : Rules) {e : Entry} {next? other? : Option Entry}
    (h : e.overlaps next? = e.overlaps other?) : e.check rules next? = e.check rules other? := by
  rw [check, check, overlapIssues, overlapIssues, h]

end Entry

/-- Each entry of a list has the issues of a check with the entry after it. -/
def AreCurrent (rules : Rules) : List Entry → Prop
  | [] => True
  | e :: rest => e.IsCurrent rules rest.head? ∧ AreCurrent rules rest

/-- The number of issues of one kind in a list of entries. -/
def issueTotal (kind : IssueKind) (entries : List Entry) : Nat :=
  (entries.map fun e => e.issues.countP fun issue => issue.kind = kind).sum

theorem issueTotal_cons (kind : IssueKind) (e : Entry) (es : List Entry) :
    issueTotal kind (e :: es) =
      (e.issues.countP fun issue => issue.kind = kind) + issueTotal kind es := by
  rw [issueTotal, List.map_cons, List.sum_cons, issueTotal]

theorem count_kind (issues : List Issue) (kind : IssueKind) :
    (issues.map (·.kind)).count kind = issues.countP fun issue => issue.kind = kind := by
  rw [List.count_eq_countP, List.countP_map]
  rfl

section Checks

variable {rules : Rules} {es : List Entry}

theorem overlaps_head?_checkEntries (e : Entry) :
    e.overlaps (checkEntries rules es).1.head? = e.overlaps es.head? := by
  cases es with
  | nil => rfl
  | cons next es =>
    rw [checkEntries]
    split
    · rfl
    · split <;> rfl

theorem checkEntries_cons_of_ok {e : Entry} {issues : List Issue} (hm : e.malformed = false)
    (h : e.check rules es.head? = .ok issues) :
    checkEntries rules (e :: es) = ({ e with issues } :: (checkEntries rules es).1,
      (checkEntries rules es).2.map (·.addAll (issues.map (·.kind)))) := by
  rw [checkEntries, if_neg (by rw [hm]; decide), h]

/-- A second pass of checks finds what the first did. -/
theorem checkEntries_checkEntries (rules : Rules) (es : List Entry) :
    checkEntries rules (checkEntries rules es).1 = checkEntries rules es := by
  induction es with
  | nil => rfl
  | cons e es ih =>
    cases hm : e.malformed with
    | true => simp only [checkEntries, hm, if_true, ih]
    | false =>
      cases hissues : e.check rules es.head? with
      | error failure => simp only [checkEntries, hm, Bool.false_eq_true, if_false, hissues]
      | ok issues =>
        have hagain : ({ e with issues } : Entry).check rules (checkEntries rules es).1.head? =
            .ok issues := (e.check_congr rules (overlaps_head?_checkEntries e)).trans hissues
        rw [checkEntries_cons_of_ok hm hissues]
        exact (checkEntries_cons_of_ok (e := { e with issues }) hm hagain).trans (by rw [ih])

/-- A pass of checks that succeeds counts a malformed block as one issue, and renews the issues of a
subtitle. -/
theorem checkEntries_cons_eq_ok {e : Entry} {counts : IssueCounts}
    (h : (checkEntries rules (e :: es)).2 = .ok counts) :
    ∃ later, (checkEntries rules es).2 = .ok later ∧
      ((e.malformed = true ∧ counts = later.add .syntactic ∧
          (checkEntries rules (e :: es)).1 = e :: (checkEntries rules es).1) ∨
        ∃ issues, e.malformed = false ∧ e.check rules es.head? = .ok issues ∧
          counts = later.addAll (issues.map (·.kind)) ∧
          (checkEntries rules (e :: es)).1 =
            { e with issues } :: (checkEntries rules es).1) := by
  rw [checkEntries] at h ⊢
  generalize checkEntries rules es = tail at h ⊢
  obtain ⟨rest, result⟩ := tail
  cases hm : e.malformed with
  | true =>
    rw [hm] at h
    cases result with
    | error f => cases h
    | ok later =>
      injection h with h
      exact ⟨later, rfl, .inl ⟨rfl, h.symm, rfl⟩⟩
  | false =>
    rw [hm] at h
    cases hissues : e.check rules es.head? with
    | error f =>
      rw [hissues] at h
      cases h
    | ok issues =>
      rw [hissues] at h
      cases result with
      | error f => cases h
      | ok later =>
        injection h with h
        exact ⟨later, rfl, .inr ⟨issues, rfl, rfl, h.symm, rfl⟩⟩

/-- A pass of checks succeeds when each subtitle can be checked. -/
theorem checkEntries_eq_ok_iff :
    (∃ counts, (checkEntries rules es).2 = .ok counts) ↔
      ∀ e ∈ es, e.malformed = false → ∃ issues, e.check rules none = .ok issues := by
  induction es with
  | nil => exact ⟨fun _ e he => absurd he List.not_mem_nil, fun _ => ⟨_, rfl⟩⟩
  | cons e es ih =>
    rw [List.forall_mem_cons, ← ih]
    constructor
    · rintro ⟨counts, h⟩
      obtain ⟨later, hlater, hcases⟩ := checkEntries_cons_eq_ok h
      refine ⟨fun hm => ?_, later, hlater⟩
      rcases hcases with ⟨hm', -⟩ | ⟨issues, -, hissues, -⟩
      · rw [hm] at hm'
        cases hm'
      · exact Entry.check_eq_ok_iff.2 (Entry.check_eq_ok_iff.1 ⟨issues, hissues⟩)
    · rintro ⟨he, later, hlater⟩
      cases hm : e.malformed with
      | true =>
        rw [checkEntries, if_pos hm]
        exact ⟨_, congrArg (Except.map _) hlater⟩
      | false =>
        obtain ⟨issues, hissues⟩ := Entry.check_eq_ok_iff.2 (Entry.check_eq_ok_iff.1 (he hm))
        rw [checkEntries_cons_of_ok hm hissues]
        exact ⟨_, congrArg (Except.map _) hlater⟩

/-- A pass of checks cannot fail on entries of moderate size. -/
theorem checkEntries_eq_ok (rules : Rules) (h : ∀ e ∈ es, e.Moderate) :
    ∃ counts, (checkEntries rules es).2 = .ok counts :=
  checkEntries_eq_ok_iff.2 fun e he _ =>
    Entry.check_eq_ok_of_lt (h e he).duration_lt (h e he).text_length rules none

/-- After a pass of checks the issues are current, and the counts those of the issues. -/
theorem checkEntries_spec {counts : IssueCounts}
    (hlost : ∀ e ∈ es, e.malformed = true → e.IsLost)
    (h : (checkEntries rules es).2 = .ok counts) :
    AreCurrent rules (checkEntries rules es).1 ∧
      ∀ kind, counts.get kind = issueTotal kind (checkEntries rules es).1 := by
  induction es generalizing counts with
  | nil =>
    injection h with h
    subst h
    exact ⟨trivial, fun kind => by cases kind <;> rfl⟩
  | cons e es ih =>
    obtain ⟨later, hlater, hcases⟩ := checkEntries_cons_eq_ok h
    obtain ⟨hcurrent, htotal⟩ := ih (fun e he => hlost e (List.mem_cons_of_mem _ he)) hlater
    rcases hcases with ⟨hm, rfl, heq⟩ | ⟨issues, hm, hissues, rfl, heq⟩
    · have he := hlost e List.mem_cons_self hm
      obtain ⟨message, hmessage⟩ := he.issues_eq
      rw [heq]
      refine ⟨⟨⟨fun _ => he, fun hn => ?_⟩, hcurrent⟩, ?_⟩
      · rw [hm] at hn
        cases hn
      · intro kind
        rw [IssueCounts.get_add, htotal, issueTotal_cons, hmessage, Nat.add_comm]
        simp [List.countP_cons, eq_comm]
    · rw [heq]
      refine ⟨⟨⟨Entry.isLost_of_subtitle hm, fun _ => ?_⟩, hcurrent⟩, ?_⟩
      · -- The next entry has new issues too, but the times and the state that the check saw.
        rw [← hissues]
        exact Entry.check_congr rules (overlaps_head?_checkEntries e)
      · intro kind
        rw [IssueCounts.get_addAll, htotal, issueTotal_cons, count_kind, Nat.add_comm]

theorem isCurrent_of_getElem? (h : AreCurrent rules es) {i : Nat} {e : Entry}
    (he : es[i]? = some e) : e.IsCurrent rules es[i + 1]? := by
  induction es generalizing i with
  | nil => cases he
  | cons first es ih =>
    cases i with
    | zero =>
      injection he with he
      rw [← he, List.getElem?_cons_succ, ← List.head?_eq_getElem?]
      exact h.1
    | succ i => exact ih h.2 he

end Checks

namespace Document

theorem analyze_analyze (rules : Rules) (d : Document) :
    (d.analyze rules).1.analyze rules = d.analyze rules := by
  have h := checkEntries_checkEntries rules d.entries
  exact congrArg (fun r => (({ d with entries := r.1 }, r.2) : Document × _)) h

variable {d : Document}

theorem entryAt_eq_ok {i : Nat} {e : Entry} (he : d.entries[i]? = some e) :
    d.entryAt i = .ok e := by
  have hi : ¬ (i : Int) < 0 := by omega
  rw [entryAt, if_neg hi]
  change (d.entries[i]?).elim _ _ = _
  rw [he]
  rfl

theorem entryAfter?_eq_ok (d : Document) (i : Nat) :
    d.entryAfter? i = .ok d.entries[i + 1]? := by
  rw [entryAfter?]
  split
  · next h => rw [List.getElem?_eq_none (by omega)]
  · next h =>
    have hi : i + 1 < d.entries.length := by omega
    have he := entryAt_eq_ok (List.getElem?_eq_getElem hi)
    rw [List.getElem?_eq_getElem hi]
    rw [Int.natCast_add] at he
    exact congrArg (fun x => do return some (← x)) he

/-- Checking the entry at a position is checking it with the entry after it. -/
theorem checkAt_eq (rules : Rules) {i : Nat} {e : Entry} (he : d.entries[i]? = some e) :
    d.checkAt rules i = e.check rules d.entries[i + 1]? := by
  rw [checkAt, entryAt_eq_ok he, entryAfter?_eq_ok]
  rfl

end Document

end CueCheck
