import CueCheck.Proofs.Answers
import CueCheck.Proofs.EncodingRoundTrip

/-!
Downloads: the file that is offered holds the text that the fix shows, in the character set that is
named beside it.
-/

namespace CueCheck

theorem Numeral.not_mem_byteOrderMark_ofInt (i : Int) : byteOrderMark ∉ ofInt i := by
  intro h
  have hdigit : ∀ {n}, byteOrderMark ∈ digits n → False := fun hmem =>
    absurd (isDigit_of_mem_digits hmem) (by decide)
  rw [ofInt] at h
  split at h
  · rcases List.mem_cons.1 h with h | h
    · exact absurd h (by decide)
    · exact hdigit h
  · exact hdigit h

theorem Numeral.ofInt_ne_nil (i : Int) : ofInt i ≠ [] := by
  rw [ofInt]
  split
  · exact List.cons_ne_nil _ _
  · exact digits_ne_nil _

/-- A written document begins with an index or a blank line. -/
theorem Document.head?_render (d : Document) : d.render.head? ≠ some byteOrderMark := by
  rw [render]
  cases d.subtitles with
  | nil => decide
  | cons e es =>
    rw [intercalate_append _ (by simp), List.map_cons, List.flatMap_cons, Entry.renderEntry_eq]
    have hindex := Numeral.not_mem_byteOrderMark_ofInt e.index
    simp only [List.append_assoc]
    rw [List.head?_append_of_ne_nil _ (Numeral.ofInt_ne_nil _)]
    intro hhead
    exact hindex (List.mem_of_head? hhead)

/-! The name of the file plays no part in what becomes of its subtitles. -/

def Document.renamed (filename : Option Text) (d : Document) : Document := { d with filename }

def Loaded.renamed (filename : Option Text) (l : Loaded) : Loaded :=
  { l with document := l.document.renamed filename }

theorem Document.render_renamed (filename : Option Text) (d : Document) :
    (d.renamed filename).render = d.render := rfl

theorem Document.parse_renamed (content : Text) (filename other : Option Text) :
    parse content other = (parse content filename).map (renamed other) := by
  rw [parse, parse]
  cases readBlocks 1 (Block.split content) <;> rfl

theorem Document.applyFix_renamed (rules : Rules) (filename : Option Text) (d : Document)
    (word : Text) (confirmed : Bool) :
    (d.renamed filename).applyFix rules word confirmed =
      (d.applyFix rules word confirmed).map (renamed filename) id := by
  rw [applyFix, applyFix]
  cases Fix.permitted word confirmed with
  | error failure => rfl
  | ok fix => cases fix <;> rfl

namespace Session

def renamed (filename : Option Text) (s : Session) : Session :=
  { s with loaded := s.loaded.map (Loaded.renamed filename) }

theorem openText_renamed (rules : Rules) (text : Text) (filename other : Option Text) :
    openText rules text other = (openText rules text filename).map (Loaded.renamed other) := by
  rw [openText, openText, Document.parse_renamed text filename other]
  cases Document.parse text filename with
  | error failure => rfl
  | ok d =>
    have hanalyze : (d.renamed other).analyze rules =
        ((d.analyze rules).1.renamed other, (d.analyze rules).2) := rfl
    simp only [Except.map, bind, Except.bind, hanalyze]
    cases (d.analyze rules).2 <;> rfl

theorem fix_renamed (filename : Option Text) (s : Session) (operation : Text) (confirmed : Bool) :
    (s.renamed filename).fix operation confirmed =
      (s.fix operation confirmed).map (renamed filename) id := by
  obtain ⟨rules, loaded⟩ := s
  cases loaded with
  | none => rfl
  | some l =>
    have happly := Document.applyFix_renamed rules filename l.document operation confirmed
    simp only [renamed, Loaded.renamed, fix, current, Option.map_some, happly]
    rfl

end Session

namespace Service

variable {settings : Settings}

theorem opened_renamed (settings : Settings) (text : Text) (filename other : Option Text) :
    opened settings text other =
      (opened settings text filename).map (Session.renamed other) := by
  rw [opened, opened, Session.loadText, Session.loadText,
    Session.openText_renamed settings.rules text filename other]
  cases Session.openText settings.rules text filename <;> rfl

theorem runFixes_renamed (filename : Option Text) (s : Session) (changes : List (Fix × Nat))
    (fixes : List Fix) :
    runFixes (s.renamed filename) changes fixes =
      (runFixes s changes fixes).map fun result => (result.1.renamed filename, result.2) := by
  induction fixes generalizing s changes with
  | nil => rfl
  | cons fix fixes ih =>
    rw [runFixes, runFixes, Session.fix_renamed]
    obtain ⟨next, answer⟩ := s.fix fix.name.toList true
    cases answer with
    | error failure => rfl
    | ok report => exact ih next _

theorem fixed_renamed (settings : Settings) (s : Submission) (filename encoding : Option Text) :
    fixed settings { s with filename, encoding } =
      (fixed settings s).map fun result => (result.1.renamed filename, result.2) := by
  rw [fixed, fixed, opened_renamed settings s.content s.filename filename]
  cases opened settings s.content s.filename with
  | error failure => rfl
  | ok session => exact runFixes_renamed filename session [] s.fixes

end Service

namespace EncodingMenu

variable {menu : EncodingMenu} {name first second t : Text}

section

variable {κ : Type} [DecidableEq κ] {registry : Registry κ} {charset : κ} {options : List Text}
  {option : Text}

theorem lookup_of_find (h : find registry charset options = .ok (some option)) :
    registry.lookup option = .ok charset := by
  induction options with
  | nil => cases h
  | cons head options ih =>
    rw [find] at h
    obtain ⟨found, hfound, h⟩ := exists_of_bind_eq_ok h
    split at h
    · next heq =>
      injection h with h
      injection h with h
      rw [← h, hfound, heq]
    · exact ih h

/-- A name that is resolved means a character set, and so does the option that it gives. -/
theorem exists_charset_of_resolveIn (hne : name ≠ [])
    (h : menu.resolveIn registry (some name) = .ok option) :
    ∃ charset, registry.lookup name = .ok charset ∧ registry.lookup option = .ok charset := by
  rw [resolveIn] at h
  · obtain ⟨charset?, hname, h⟩ := exists_of_bind_eq_ok h
    cases charset? with
    | none => cases h
    | some charset =>
      obtain ⟨option?, hoption, h⟩ := exists_of_bind_eq_ok h
      cases option? with
      | none => cases h
      | some found =>
        injection h with h
        rw [← h]
        exact ⟨charset, Registry.lookup_eq_ok_iff.2 hname, lookup_of_find hoption⟩
  · exact hne

end

theorem exists_charset_of_encodeText {data : Bytes} (h : encodeText name t = .ok data) :
    ∃ charset, Charset.ofName name = .ok charset := by
  rw [encodeText] at h
  obtain ⟨charset, hcharset, -⟩ := exists_of_bind_eq_ok h
  exact ⟨charset, hcharset⟩

/-- A name is resolved to the empty one only where that is the fallback. -/
theorem fallback_eq_nil_of_resolve {name? : Option Text} (h : menu.resolve name? = .ok []) :
    menu.fallback = [] := by
  cases name? with
  | none => exact Except.ok.inj h
  | some name =>
    by_cases hne : name = []
    · subst hne
      exact Except.ok.inj h
    · obtain ⟨charset, -, hcharset⟩ := exists_charset_of_resolveIn hne h
      exact absurd rfl (Registry.ne_nil_of_lookup hcharset)

/-- A name is resolved twice for a download; both times it means the same character set. -/
theorem exists_charset_of_resolve_twice {name? : Option Text} {data : Bytes}
    (hfirst : menu.resolve name? = .ok first) (hsecond : menu.resolve (some first) = .ok second)
    (hwrite : encodeText second t = .ok data) :
    ∃ charset, Charset.ofName first = .ok charset ∧ Charset.ofName second = .ok charset := by
  by_cases hne : first = []
  · subst hne
    have hempty : second = [] :=
      (Except.ok.inj hsecond).symm.trans (fallback_eq_nil_of_resolve hfirst)
    subst hempty
    obtain ⟨charset, hcharset⟩ := exists_charset_of_encodeText hwrite
    exact ⟨charset, hcharset, hcharset⟩
  · exact exists_charset_of_resolveIn hne hsecond

end EncodingMenu

namespace Service

section Bodies

variable {exported fixing : Json}

theorem Checked.both_eq_ok_iff {α β : Type} {a : Checked α} {b : Checked β} {x : α} {y : β} :
    a.both b = .ok (x, y) ↔ a = .ok x ∧ b = .ok y := by
  cases a <;> cases b <;> simp [both]

/-- The second body asks for the fixes of the first, for the same subtitles and with the same
confirmation, and names the fixes even where there is none. -/
structure SameFixing (exported fixing : Json) : Prop where
  content : fixing.field? "srt_content" = exported.field? "srt_content"
  fixes : fixing.field? "operations" = some ((exported.field? "operations").getD (.arr []))
  confirmed : fixing.field? "confirm" = exported.field? "confirm"

theorem SameFixing.readFixes_eq (h : SameFixing exported fixing) (fallback : List Fix) :
    readFixes fallback fixing = readFixes [] exported := by
  rw [readFixes, readFixes, h.fixes]
  cases exported.field? "operations" with
  | none => rfl
  | some value => cases value <;> rfl

theorem bodyObject_of_field? {body : Json} {name : String} {value : Json}
    (h : body.field? name = some value) : bodyObject (.json body) = .ok body := by
  cases body with
  | obj fields => rfl
  | _ => cases h

theorem readDownload_eq_ok {body : Body} {s : Submission} (h : readDownload body = .ok s) :
    ∃ fields, bodyObject body = .ok fields ∧ readContent fields = .ok s.content ∧
      readFixes [] fields = .ok s.fixes ∧ readConfirmation fields = .ok s.confirmed := by
  rw [readDownload] at h
  obtain ⟨fields, hfields, h⟩ := exists_of_bind_eq_ok h
  obtain ⟨⟨content, fixes, confirmed, encoding, filename⟩, hread, rfl⟩ := exists_of_map_eq_ok h
  obtain ⟨hcontent, hread⟩ := Checked.both_eq_ok_iff.1 hread
  obtain ⟨hfixes, hread⟩ := Checked.both_eq_ok_iff.1 hread
  obtain ⟨hconfirmed, -⟩ := Checked.both_eq_ok_iff.1 hread
  exact ⟨fields, hfields, hcontent, hfixes, hconfirmed⟩

theorem SameFixing.readFixing_eq_ok (h : SameFixing exported fixing) {s : Submission}
    (hs : readDownload (.json exported) = .ok s) :
    readFixing (.json fixing) = .ok { s with filename := none, encoding := none } := by
  obtain ⟨fields, hfields, hcontent, hfixes, hconfirmed⟩ := readDownload_eq_ok hs
  have hobject : fields = exported := by
    cases exported with
    | obj _ => exact (Except.ok.inj hfields).symm
    | _ => cases hfields
  subst hobject
  have hcontent' : readContent fixing = .ok s.content := by
    rw [readContent, h.content]
    exact hcontent
  have hconfirmed' : readConfirmation fixing = .ok s.confirmed := by
    rw [readConfirmation, h.confirmed]
    exact hconfirmed
  have hfixes' : readFixes [.resolveTiming] fixing = .ok s.fixes := (h.readFixes_eq _).trans hfixes
  have hread := Checked.both_eq_ok_iff.2 ⟨hcontent',
    Checked.both_eq_ok_iff.2 ⟨hfixes', hconfirmed'⟩⟩
  rw [readFixing, bodyObject_of_field? h.fixes]
  simp only [bind, Except.bind, hread]
  rfl

end Bodies

variable {settings : Settings} {r : Response}

/-- An offered file is read as the document of its session. -/
theorem fileText?_of_fileResponse {session : Session} {encoding : Option Text}
    (h : fileResponse settings session encoding = .ok r) :
    ∃ loaded, session.loaded = some loaded ∧ r.fileText? = some loaded.document.render := by
  rw [fileResponse, fileResponseIn] at h
  obtain ⟨first, hfirst, h⟩ := exists_of_bind_eq_ok h
  obtain ⟨⟨filename, data⟩, hexported, h⟩ := exists_of_bind_eq_ok h
  injection h with h
  rw [Session.exportedIn] at hexported
  obtain ⟨loaded, hloaded, hexported⟩ := exists_of_bind_eq_ok hexported
  obtain ⟨second, hsecond, hexported⟩ := exists_of_bind_eq_ok hexported
  obtain ⟨written, hwrite, hexported⟩ := exists_of_bind_eq_ok hexported
  injection hexported with hexported
  injection hexported with hname hdata
  subst hdata
  obtain ⟨charset, hnamed, hused⟩ :=
    EncodingMenu.exists_charset_of_resolve_twice hfirst hsecond hwrite
  -- The file is written under the second name and read under the first.
  have hencode : encodeText first loaded.document.render = .ok written :=
    (encodeText_eq_ok_iff hnamed).2 ((encodeText_eq_ok_iff hused).1 hwrite)
  have hread : readText first written = .ok loaded.document.render := by
    rw [readText_of_encodeText hnamed hencode, dropWhile_eq_self loaded.document.head?_render]
  refine ⟨loaded, loaded_of_current hloaded, ?_⟩
  rw [← h]
  simp only [Response.fileText?, bind, Option.bind, Text.after?_append, hread]
  rfl

theorem eq_ok_of_answerClientFailure {result : Except Failure Response}
    (h : answerClientFailure result = .ok r) (hr : r.status = 200) : result = .ok r := by
  cases result with
  | ok response => exact h
  | error failure =>
    rw [answerClientFailure] at h
    split at h
    · injection h with h
      rw [← h, status_refused] at hr
      cases hr
    · cases h

/-- A download that succeeds offers the document of the session in which the fixes were made. -/
theorem fileText?_of_download {s : Submission} (h : download settings s = .ok r)
    (hr : r.status = 200) :
    ∃ session changes loaded, fixed settings s = .ok (session, changes) ∧
      session.loaded = some loaded ∧ r.fileText? = some loaded.document.render := by
  have hs := not_unconfirmed_of_status (.inr h) hr
  rw [download, unconfirmed?_eq_none_iff.2 hs] at h
  obtain ⟨⟨session, changes⟩, hfixed, h⟩ := exists_of_bind_eq_ok h
  obtain ⟨loaded, hloaded, htext⟩ :=
    fileText?_of_fileResponse (eq_ok_of_answerClientFailure h hr)
  exact ⟨session, changes, loaded, hfixed, hloaded, htext⟩

/-- Where a download succeeds, the same fixes of the same subtitles succeed, and the file that is
offered, read in the character set that its type names, is the text that the fix shows. -/
theorem fileText?_eq_fixedText? (settings : Settings) {exported fixing : Json}
    (hsame : SameFixing exported fixing) {file : Response}
    (h : Endpoint.download.respond settings (.json exported) = .ok file) (hok : file.status = 200) :
    ∃ shown text, Endpoint.fix.respond settings (.json fixing) = .ok shown ∧ shown.status = 200 ∧
      shown.fixedText? = some text ∧ file.fileText? = some text := by
  rw [Endpoint.respond] at h
  cases hread : readDownload (.json exported) with
  | error problems =>
    rw [hread, checked] at h
    injection h with h
    rw [← h] at hok
    cases hok
  | ok s =>
    rw [hread, checked] at h
    obtain ⟨session, changes, loaded, hfixed, hloaded, hfile⟩ := fileText?_of_download h hok
    have hconfirmed := not_unconfirmed_of_status (.inr h) hok
    let bare : Submission := { s with filename := none, encoding := none }
    have hbare : ¬ bare.Unconfirmed := hconfirmed
    have hrenamed : fixed settings bare = .ok (session.renamed none, changes) := by
      rw [fixed_renamed, hfixed]
      rfl
    have hkept : (session.renamed none).loaded = some (loaded.renamed none) := by
      rw [Session.renamed, hloaded]
      rfl
    obtain ⟨shown, hshown, hshows⟩ := fix_eq_ok hbare hrenamed hkept
    have htext := hshows.text
    rw [Loaded.renamed, Document.render_renamed] at htext
    refine ⟨shown, loaded.document.render, ?_, hshows.status, htext, hfile⟩
    rw [Endpoint.respond, hsame.readFixing_eq_ok hread]
    exact hshown

/-- A fix that is named twice, a malformed block, and an encoding under another of its names. -/
theorem fileText?_eq_fixedText?_arabic :
    let content := Json.ofString <| "\uFEFF1\n00:00:01,000 --> 00:00:03,000\n<i>سلام</i>\n\n" ++
      "lost\n\n7\n00:00:02,000 --> 00:00:02,100\n<b>€5</b>"
    let fixes := Json.arr (["strip_markup", "resolve_common", "strip_markup"].map .ofString)
    let exported := Json.obj [
      ("filename", .ofString "film.srt"), ("encoding", .ofString "CP1256"),
      ("srt_content", content), ("operations", fixes), ("confirm", .ofString "yes")]
    let fixing := Json.obj [
      ("confirm", .ofString "yes"), ("operations", fixes), ("srt_content", content)]
    let text := ("1\n00:00:01,000 --> 00:00:03,000\nسلام\n\n" ++
      "7\n00:00:02,000 --> 00:00:03,000\n€5\n\n").toList
    SameFixing exported fixing ∧
      ∃ file shown, Endpoint.download.respond {} (.json exported) = .ok file ∧
        file.status = 200 ∧
        file.contentType = some "text/plain; charset=windows-1256".toList ∧
        Endpoint.fix.respond {} (.json fixing) = .ok shown ∧
        shown.fixedText? = some text ∧ file.fileText? = some text := by
  intro content fixes exported fixing text
  have hsame : SameFixing exported fixing := ⟨rfl, rfl, rfl⟩
  have hfacts : (Endpoint.download.respond {} (.json exported)).map
        (fun r => (r.status, r.contentType)) =
          .ok (200, some "text/plain; charset=windows-1256".toList) ∧
      (Endpoint.fix.respond {} (.json fixing)).map (·.fixedText?) = .ok (some text) := by
    decide +kernel
  obtain ⟨hfile, hshown⟩ := hfacts
  obtain ⟨file, hrespond, hhead⟩ := exists_of_map_eq_ok hfile
  injection hhead with hstatus htype
  obtain ⟨shown, same, hfix, -, hfixed, hread⟩ :=
    fileText?_eq_fixedText? {} hsame hrespond hstatus
  rw [hfix] at hshown
  have hsameText : same = text := by
    rw [Except.map, hfixed] at hshown
    exact Option.some.inj (Except.ok.inj hshown)
  rw [hsameText] at hfixed hread
  exact ⟨hsame, file, shown, hrespond, hstatus, htype, hfix, hfixed, hread⟩

end Service

end CueCheck
