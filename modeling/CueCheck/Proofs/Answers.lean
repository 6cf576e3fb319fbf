import CueCheck.Proofs.FixEffects
import CueCheck.Proofs.RepeatedFixes

/-!
What the answers of the service say: the fixed text and the counts in the answer to a fix, and the
text of a file that is offered for download.
-/

namespace CueCheck

/-! The issues that entries have are neither written nor looked at when there are new ones. -/

namespace Document

variable {rules : Rules} {d d' : Document}

theorem analyze_of_map_bare (h : d.entries.map Entry.bare = d'.entries.map Entry.bare) :
    (d.analyze rules).2 = (d'.analyze rules).2 := by
  have hcounts := congrArg (fun es => (checkEntries rules es).2) h
  simp only [checkEntries_map_bare] at hcounts
  exact hcounts

theorem render_of_map_bare (h : d.entries.map Entry.bare = d'.entries.map Entry.bare) :
    d.render = d'.render := by
  have hblocks (d : Document) : d.subtitles.map renderEntry =
      ((d.entries.map Entry.bare).filter (!·.malformed)).map renderEntry := by
    rw [List.filter_map, List.map_map]
    rfl
  rw [render, render, hblocks, hblocks, h]

end Document

namespace Service

namespace Response

/-- The value of a field in the content of a response. -/
def field? (name : String) (r : Response) : Option Json :=
  match r.content with
  | .json value => value.field? name
  | .bytes _ => none

/-- The fixed subtitles in the answer to a fix. -/
def fixedText? (r : Response) : Option Text :=
  match r.field? "fixed_srt" with
  | some (.str text) => some text
  | _ => none

/-- The number of issues of one kind in the report of a response. -/
def reportedCount? (kind : IssueKind) (r : Response) : Option Int := do
  let counts ← (← r.field? "report").field? "counts"
  match counts.field? kind.name with
  | some (.int n) => some n
  | _ => none

/-- The text of an offered file, read in the character set that its type names. -/
def fileText? (r : Response) : Option Text := do
  let name ← Text.after? "text/plain; charset=".toList (← r.contentType)
  match r.content with
  | .json _ => none
  | .bytes data => (readText name data).toOption

end Response

section Fixing

variable {settings : Settings} {s : Submission} {d : Document} {r : Response}

theorem status_refused (status : Nat) (failure : Failure) :
    (refused status failure).status = status := rfl

/-- Neither a fix nor a download succeeds without the confirmation that it needs. -/
theorem not_unconfirmed_of_status (h : Service.fix settings s = .ok r ∨ download settings s = .ok r)
    (hr : r.status = 200) : ¬ s.Unconfirmed := by
  intro hs
  obtain ⟨fix, -, -, hrefused⟩ := hs.refused settings
  obtain ⟨hfix, hdownload⟩ := hrefused s.content
  have hstatus : r = refused 409 (.confirmationRequired fix.name) := by
    rcases h with h | h
    · exact Except.ok.inj (h.symm.trans hfix)
    · exact Except.ok.inj (h.symm.trans hdownload)
  rw [hstatus, status_refused] at hr
  cases hr

theorem loaded_of_current {session : Session} {loaded : Loaded}
    (h : session.current = .ok loaded) : session.loaded = some loaded := by
  rw [Session.current] at h
  split at h
  · next found hfound =>
    injection h with h
    rw [hfound, h]
  · cases h

/-- What the answer to a fix shows of the document in a session. -/
structure Shows (r : Response) (loaded : Loaded) : Prop where
  status : r.status = 200
  text : r.fixedText? = some loaded.document.render
  counts : ∀ kind, r.reportedCount? kind = some (loaded.counts.get kind : Int)

theorem shows_of_loaded (loaded : Loaded) (changes : Json) :
    Shows (.json 200 (.obj [
      ("fixed_srt", .str loaded.document.render), ("changes", changes),
      ("report", reportJson loaded.document loaded.counts)])) loaded := by
  constructor
  · rfl
  · rfl
  · intro kind
    cases kind <;> rfl

/-- A fix that succeeds shows the document of the session in which it was made. -/
theorem shows_of_fix (h : Service.fix settings s = .ok r) (hr : r.status = 200) :
    ∃ session changes loaded, fixed settings s = .ok (session, changes) ∧
      session.loaded = some loaded ∧ Shows r loaded := by
  have hs := not_unconfirmed_of_status (.inl h) hr
  rw [Service.fix, unconfirmed?_eq_none_iff.2 hs] at h
  obtain ⟨⟨session, changes⟩, hfixed, h⟩ := exists_of_bind_eq_ok h
  obtain ⟨loaded, hloaded, h⟩ := exists_of_bind_eq_ok h
  simp only [report, hloaded] at h
  injection h with h
  refine ⟨session, changes, loaded, hfixed, loaded_of_current hloaded, ?_⟩
  rw [← h]
  exact shows_of_loaded loaded _

/-- A confirmed submission that can be fixed is answered. -/
theorem fix_eq_ok (hs : ¬ s.Unconfirmed) {session : Session} {changes : List (Fix × Nat)}
    {loaded : Loaded} (hfixed : fixed settings s = .ok (session, changes))
    (hloaded : session.loaded = some loaded) :
    ∃ r, Service.fix settings s = .ok r ∧ Shows r loaded := by
  have hcurrent : session.current = .ok loaded := by rw [Session.current, hloaded]
  rw [Service.fix, unconfirmed?_eq_none_iff.2 hs, hfixed]
  simp only [bind, Except.bind, report, hcurrent]
  exact ⟨_, rfl, shows_of_loaded loaded _⟩

theorem opened_eq_ok {session : Session} {text : Text} {filename : Option Text}
    (hd : Document.parse text filename = .ok d)
    (h : opened settings text filename = .ok session) :
    ∃ loaded, session = ⟨settings.rules, some loaded⟩ ∧
      loaded.document = (d.analyze settings.rules).1 := by
  rw [opened, Session.loadText] at h
  cases hl : Session.openText settings.rules text filename with
  | error failure =>
    rw [hl] at h
    cases h
  | ok loaded =>
    rw [hl] at h
    injection h with h
    rw [Session.openText, hd] at hl
    obtain ⟨d', hd', hl⟩ := exists_of_bind_eq_ok hl
    injection hd' with hd'
    obtain ⟨counts, -, hl⟩ := exists_of_bind_eq_ok hl
    injection hl with hl
    subst hd'
    refine ⟨loaded, h.symm, ?_⟩
    rw [← hl]
    rfl

theorem exists_fix_of_runFixes {before after : Session} {fix : Fix} {changes : List (Fix × Nat)}
    (h : runFixes before [] [fix] = .ok (after, changes)) :
    ∃ report, before.fix fix.name.toList true = (after, .ok report) := by
  rw [runFixes] at h
  split at h
  · cases h
  · next later report hfix =>
    injection h with h
    injection h with hafter
    exact ⟨report, hafter ▸ hfix⟩

/-- The answer to a single fix shows and counts what the fix makes of the document as it is read. -/
theorem shows_of_single_fix {fix : Fix} (hfixes : s.fixes = [fix])
    (hd : Document.parse s.content s.filename = .ok d) (h : Service.fix settings s = .ok r)
    (hr : r.status = 200) :
    ∃ counts, ((fix.run settings.rules d).1.analyze settings.rules).2 = .ok counts ∧
      r.fixedText? = some (fix.run settings.rules d).1.render ∧
      ∀ kind, r.reportedCount? kind = some (counts.get kind : Int) := by
  obtain ⟨session, changes, loaded, hfixed, hloaded, hshows⟩ := shows_of_fix h hr
  rw [fixed] at hfixed
  obtain ⟨start, hstart, hrun⟩ := exists_of_bind_eq_ok hfixed
  obtain ⟨first, rfl, hfirst⟩ := opened_eq_ok hd hstart
  rw [hfixes] at hrun
  obtain ⟨report, hfix⟩ := exists_fix_of_runFixes hrun
  obtain ⟨before, hbefore, hcounts, rfl⟩ := Session.fix_eq_ok hfix
  injection hbefore with hbefore
  subst hbefore
  injection hloaded with hloaded
  rw [← hloaded] at hshows
  have hread : first.document.entries.map Entry.bare = d.entries.map Entry.bare := by
    rw [hfirst]
    exact map_bare_checkEntries settings.rules d.entries
  have hrun := Fix.map_bare_run settings.rules hread fix
  have hanalyzed : (fix.outcome settings.rules first.document).1.entries.map Entry.bare = _ :=
    (map_bare_checkEntries settings.rules _).trans hrun
  have htext := hshows.text
  rw [Document.render_of_map_bare hanalyzed] at htext
  exact ⟨report.counts, (Document.analyze_of_map_bare hrun).symm.trans hcounts, htext,
    hshows.counts⟩

theorem filename_of_readFixing {body : Body} (h : readFixing body = .ok s) : s.filename = none := by
  rw [readFixing] at h
  obtain ⟨fields, -, h⟩ := exists_of_bind_eq_ok h
  obtain ⟨fields, -, rfl⟩ := exists_of_map_eq_ok h
  rfl

end Fixing

end Service

end CueCheck
