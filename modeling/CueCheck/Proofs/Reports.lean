import CueCheck.Proofs.SessionRuns
import CueCheck.Service.Report

/-!
Reports on the current document of a session: they list its entries, and their figures are those of
the entries that they list.
-/

namespace CueCheck

namespace Json

/-- The items of the list in a field. -/
def items (name : String) (j : Json) : List Json :=
  match j.field? name with
  | some (.arr items) => items
  | _ => []

/-- Whether a field says yes. -/
def holds (name : String) (j : Json) : Bool :=
  match j.field? name with
  | some (.bool value) => value
  | _ => false

/-- Whether a field has a given word. -/
def hasWord (name word : String) (j : Json) : Bool :=
  match j.field? name with
  | some (.str text) => text == word.toList
  | _ => false

end Json

theorem IssueKind.name_eq_iff {kind other : IssueKind} :
    kind.name.toList = other.name.toList ↔ kind = other := by
  cases kind <;> cases other <;> decide

section Totals

variable {kind : IssueKind} {es : List Entry}

theorem issueTotal_pos_iff :
    0 < issueTotal kind es ↔ ∃ e ∈ es, ∃ issue ∈ e.issues, issue.kind = kind := by
  induction es with
  | nil => simp [issueTotal]
  | cons e es ih =>
    rw [issueTotal_cons, Nat.add_pos_iff_pos_or_pos, ih, List.countP_pos_iff]
    simp

theorem IssueCounts.hasIssues_iff {counts : IssueCounts} :
    counts.hasIssues = true ↔ ∃ kind, 0 < counts.get kind := by
  rw [hasIssues, decide_eq_true_iff, total]
  constructor
  · intro h
    by_contra hnone
    have hzero (kind : IssueKind) : counts.get kind = 0 := by
      by_contra hne
      exact hnone ⟨kind, Nat.pos_of_ne_zero hne⟩
    have h₁ := hzero .syntactic
    have h₂ := hzero .overlap
    have h₃ := hzero .shortDuration
    have h₄ := hzero .longDuration
    have h₅ := hzero .lineLength
    have h₆ := hzero .readingSpeed
    have h₇ := hzero .formatting
    simp only [get] at h₁ h₂ h₃ h₄ h₅ h₆ h₇
    omega
  · rintro ⟨kind, h⟩
    cases kind <;> simp only [get] at h <;> omega

/-- There are issues exactly when some entry has one. -/
theorem hasIssues_eq_any {counts : IssueCounts}
    (h : ∀ kind, counts.get kind = issueTotal kind es) :
    counts.hasIssues = es.any fun e => !e.issues.isEmpty := by
  rw [Bool.eq_iff_iff, IssueCounts.hasIssues_iff, List.any_eq_true]
  constructor
  · rintro ⟨kind, hkind⟩
    rw [h] at hkind
    obtain ⟨e, he, issue, hissue, -⟩ := issueTotal_pos_iff.1 hkind
    refine ⟨e, he, ?_⟩
    cases hissues : e.issues with
    | nil =>
      rw [hissues] at hissue
      cases hissue
    | cons first rest => rfl
  · rintro ⟨e, he, hne⟩
    cases hissues : e.issues with
    | nil =>
      rw [hissues] at hne
      cases hne
    | cons issue rest =>
      refine ⟨issue.kind, ?_⟩
      rw [h]
      exact issueTotal_pos_iff.2 ⟨e, he, issue, by rw [hissues]; exact List.mem_cons_self, rfl⟩

end Totals

namespace Service

/-- A report lists entries in their order, and tells how many there are. -/
structure Lists (report : Json) (es : List Entry) : Prop where
  entries : report.items "entries" = es.map entryJson
  entry_count : report.field? "entry_count" = some (.ofNat es.length)

/-- The figures of a report are those of the entries that it lists: of each kind the number of
issues listed under them, the number of malformed ones, and whether any has an issue. -/
structure Tallies (report : Json) : Prop where
  counts : report.field? "counts" = some (.obj (IssueKind.all.map fun kind =>
    (kind.name, .ofNat (((report.items "entries").flatMap (·.items "issues")).countP
      (·.hasWord "kind" kind.name)))))
  error_count : report.field? "error_count" =
    some (.ofNat ((report.items "entries").countP (·.holds "is_error")))
  has_issues : report.field? "has_issues" =
    some (.bool ((report.items "entries").any fun e => !(e.items "issues").isEmpty))

theorem items_reportJson (d : Document) (counts : IssueCounts) :
    (reportJson d counts).items "entries" = d.entries.map entryJson := rfl

theorem items_entryJson (e : Entry) : (entryJson e).items "issues" = e.issues.map issueJson := rfl

theorem hasWord_issueJson (issue : Issue) (kind : IssueKind) :
    (issueJson issue).hasWord "kind" kind.name = decide (issue.kind = kind) := by
  change (issue.kind.name.toList == kind.name.toList) = decide (issue.kind = kind)
  rw [Bool.eq_iff_iff, beq_iff_eq, decide_eq_true_iff, IssueKind.name_eq_iff]

theorem countP_listed (kind : IssueKind) (es : List Entry) :
    ((es.map entryJson).flatMap (·.items "issues")).countP (·.hasWord "kind" kind.name) =
      issueTotal kind es := by
  induction es with
  | nil => rfl
  | cons e es ih =>
    rw [List.map_cons, List.flatMap_cons, List.countP_append, ih, issueTotal_cons, items_entryJson,
      List.countP_map]
    congr 1
    apply List.countP_congr
    intro issue _
    rw [Function.comp_apply, hasWord_issueJson]

theorem lists_reportJson (d : Document) (counts : IssueCounts) :
    Lists (reportJson d counts) d.entries where
  entries := items_reportJson d counts
  entry_count := rfl

/-- A report on a document with the counts of its issues. -/
theorem tallies_reportJson {d : Document} {counts : IssueCounts}
    (h : ∀ kind, counts.get kind = issueTotal kind d.entries) : Tallies (reportJson d counts) := by
  constructor
  · have hfield : (reportJson d counts).field? "counts" = some (countsJson counts) := rfl
    rw [hfield, items_reportJson, countsJson, IssueCounts.table, List.map_map]
    refine congrArg (fun fields => some (Json.obj fields)) (List.map_congr_left fun kind _ => ?_)
    rw [countP_listed, ← h]
    rfl
  · have hfield : (reportJson d counts).field? "error_count" =
        some (.ofNat d.malformed.length) := rfl
    rw [hfield, items_reportJson, List.countP_map, Document.malformed,
      ← List.countP_eq_length_filter]
    rfl
  · have hfield : (reportJson d counts).field? "has_issues" = some (.bool counts.hasIssues) := rfl
    have hlisted : (fun e : Json => !(e.items "issues").isEmpty) ∘ entryJson =
        fun e => !e.issues.isEmpty := by
      funext e
      rw [Function.comp_apply, items_entryJson, List.isEmpty_map]
    rw [hfield, items_reportJson, hasIssues_eq_any h, List.any_map, hlisted]

end Service

namespace Session

/-- After any run the current document is checked: each subtitle has the issues that a check of it
finds now, each malformed block the one issue it was read with, and the counts are those of the
issues. A report lists the entries of the document and tells how many there are, and its figures are
those of the entries in it. -/
theorem runAll_current (menu : EncodingMenu) {rules : Rules} (hr : rules.Moderate)
    {commands : List Command} (hc : ∀ command ∈ commands, command.Short menu) {l : Loaded}
    (hl : (runAll menu ⟨rules, none⟩ commands).loaded = some l) :
    (∀ (i : Nat) (e : Entry), l.document.entries[i]? = some e →
        (e.malformed = false →
          l.document.checkAt (runAll menu ⟨rules, none⟩ commands).rules i = .ok e.issues) ∧
        (e.malformed = true → e.IsLost)) ∧
      (∀ kind, l.counts.get kind = issueTotal kind l.document.entries) ∧
      Service.Lists (Service.reportJson l.document l.counts) l.document.entries ∧
      Service.Tallies (Service.reportJson l.document l.counts) := by
  have hsound := ((sound_new rules).runAll hr hc).1 l hl
  refine ⟨fun i e he => ?_, hsound.counted, Service.lists_reportJson l.document l.counts,
    Service.tallies_reportJson hsound.counted⟩
  have hcurrent := isCurrent_of_getElem? hsound.current he
  refine ⟨fun hm => ?_, hcurrent.lost⟩
  rw [Document.checkAt_eq _ he]
  exact hcurrent.checked hm

/-- The timing fix cuts the first subtitle and stretches it again, so that it still overlaps; the
reload before it fails. -/
theorem runAll_still_overlaps :
    let menu : EncodingMenu := ⟨["utf-8".toList], "utf-8".toList⟩
    let text := "1\n00:00:01,000 --> 00:00:03,000\nOne\n\n" ++
      "2\n00:00:01,500 --> 00:00:04,000\nTwo\n\n3\nLost"
    let commands : List Command := [
      .loadText text.toList none, .reload (some "latin".toList), .fix "resolve_common".toList false]
    Rules.Moderate {} ∧ (∀ command ∈ commands, command.Short menu) ∧
      ∃ l, (runAll menu ⟨{}, none⟩ commands).loaded = some l ∧
        (l.document.entries.map fun e => (e.stop, e.issues.map (·.kind))) =
          [(2000, [.overlap]), (4000, []), (0, [.syntactic])] ∧
        (Service.reportJson l.document l.counts).field? "entry_count" = some (.ofNat 3) ∧
        Service.Lists (Service.reportJson l.document l.counts) l.document.entries ∧
        Service.Tallies (Service.reportJson l.document l.counts) := by
  intro menu text commands
  have hr : Rules.Moderate {} := by constructor <;> decide
  have hc : ∀ command ∈ commands, command.Short menu := by decide +kernel
  have hrun : ((runAll menu ⟨{}, none⟩ commands).loaded.map fun l =>
      l.document.entries.map fun e => (e.stop, e.issues.map (·.kind))) =
        some [(2000, [.overlap]), (4000, []), (0, [.syntactic])] := by decide +kernel
  obtain ⟨l, hl, hlisted⟩ := Option.map_eq_some_iff.1 hrun
  obtain ⟨-, -, hlists, htallies⟩ := runAll_current menu hr hc hl
  have hlength : l.document.entries.length = 3 := by
    rw [← List.length_map (fun e : Entry => (e.stop, e.issues.map (·.kind))), hlisted]
    rfl
  exact ⟨hr, hc, l, hl, hlisted, by rw [hlists.entry_count, hlength], hlists, htallies⟩

end Session

end CueCheck
