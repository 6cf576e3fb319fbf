import CueCheck.Proofs.BlockSplitting
import CueCheck.Proofs.Downloads
import CueCheck.Proofs.Overflows
import CueCheck.Proofs.SessionRuns

/-!
Loading a text and loading its bytes: both give the same document, unless the text begins with a
byte order mark, which is taken off the bytes but not off the text.
-/

namespace CueCheck

open Text

/-- The text without the byte order marks that it begins with. -/
def Text.unmarked (t : Text) : Text := t.dropWhile (· == byteOrderMark)

/-- A mark shows, so a text that begins with one shows less without its marks. -/
theorem Text.length_visible_unmarked_lt {t : Text} (h : t.head? = some byteOrderMark) :
    (visible (unmarked t)).length < (visible t).length := by
  cases t with
  | nil => cases h
  | cons c t =>
    injection h with h
    subst h
    have hrest : unmarked (byteOrderMark :: t) = unmarked t :=
      List.dropWhile_cons_of_pos (beq_self_eq_true _)
    have hless : (visible (unmarked t)).length ≤ (visible t).length :=
      ((List.dropWhile_sublist (· == byteOrderMark)).filter (!isBlank ·)).length_le
    have hmark : visible (byteOrderMark :: t) = byteOrderMark :: visible t :=
      List.filter_cons_of_pos (by decide)
    rw [hrest, hmark, List.length_cons]
    omega

namespace Session

variable {menu : EncodingMenu} {rules : Rules} {encoding : Option Text} {name : Text}

/-- The entries of a loaded text keep its blocks. -/
theorem raw_of_openText {text : Text} {filename : Option Text} {l : Loaded}
    (h : openText rules text filename = .ok l) :
    l.document.entries.map (·.raw) = Block.split text := by
  rw [openText] at h
  obtain ⟨d, hparse, h⟩ := exists_of_bind_eq_ok h
  obtain ⟨counts, -, h⟩ := exists_of_bind_eq_ok h
  injection h with h
  have hbare := congrArg (List.map (·.raw)) (map_bare_checkEntries rules d.entries)
  rw [List.map_map, List.map_map] at hbare
  rw [← h, ← (Document.covers_of_parse hparse).raw]
  exact hbare

/-- Marks make no difference to the loading of a text: it begins with none, or it cannot be loaded
and fails alike without them. -/
def Unaffected (rules : Rules) (text : Text) (filename : Option Text) : Prop :=
  text.head? ≠ some byteOrderMark ∨
    ∃ failure, openText rules text filename = .error failure ∧
      openText rules text.unmarked filename = .error failure

theorem Unaffected.openText_eq {text : Text} {filename : Option Text}
    (h : Unaffected rules text filename) :
    openText rules text.unmarked filename = openText rules text filename := by
  rcases h with ht | ⟨failure, hfailed, hunmarked⟩
  · rw [unmarked, dropWhile_eq_self ht]
  · rw [hfailed, hunmarked]

/-- The blocks of a text that can be loaded, as its entries keep them. -/
def openedBlocks (rules : Rules) (text : Text) (filename : Option Text) :
    Except Failure (List Text) :=
  (openText rules text filename).map fun l => l.document.entries.map (·.raw)

/-- A mark that is not taken off is in a block. -/
theorem unaffected_of_openedBlocks {text : Text} {filename : Option Text}
    (h : openedBlocks rules text.unmarked filename = openedBlocks rules text filename) :
    Unaffected rules text filename := by
  by_cases ht : text.head? = some byteOrderMark
  · rw [openedBlocks, openedBlocks] at h
    cases hmarked : openText rules text filename with
    | error failure =>
      rw [hmarked] at h
      cases hunmarked : openText rules text.unmarked filename with
      | error other =>
        rw [hunmarked] at h
        injection h with h
        exact .inr ⟨failure, hmarked, by rw [hunmarked, h]⟩
      | ok l' =>
        rw [hunmarked] at h
        cases h
    | ok l =>
      rw [hmarked] at h
      obtain ⟨l', hunmarked, hblocks⟩ := exists_of_map_eq_ok h
      dsimp only at hblocks
      rw [raw_of_openText hmarked, raw_of_openText hunmarked] at hblocks
      have hshown := congrArg (fun blocks : List Text => (visible blocks.flatten).length) hblocks
      simp only [Block.visible_flatten_split] at hshown
      have hless := length_visible_unmarked_lt ht
      omega
  · exact .inl ht

/-- The bytes of a text are read as the text without its marks. -/
theorem readFile_encode (hname : menu.resolve encoding = .ok name)
    (hcharset : Charset.ofName name = .ok .utf8) (text : Text) :
    readFile menu (.bytes (Utf8.encode text)) encoding =
      .ok (Utf8.encode text, text.unmarked) := by
  have hread := readText_of_encodeText hcharset (encodeText_eq hcharset text)
  simp only [readFile, hname, Source.read, bind, Except.bind, hread]
  rfl

/-- The document and the counts of a session. -/
def contents (s : Session) : Option (Document × IssueCounts) :=
  s.loaded.map fun l => (l.document, l.counts)

theorem contents_keepRaw (s : Session) (raw : Bytes) : (s.keepRaw raw).contents = s.contents := by
  rw [contents, contents, keepRaw, Option.map_map]
  rfl

/-- Two loads come to the same if they give the same counts or fail alike, and leave the same
document. -/
structure SameLoad (a b : Session × Except Failure IssueCounts) : Prop where
  answer : a.2 = b.2
  contents : a.1.contents = b.1.contents

/-- The blocks that the entries of a session keep after a load. -/
def keptBlocks (outcome : Session × Except Failure IssueCounts) : Except Failure (List Text) :=
  outcome.2.map fun _ => (outcome.1.contents.map fun c => c.1.entries.map (·.raw)).getD []

theorem SameLoad.keptBlocks_eq {a b : Session × Except Failure IssueCounts} (h : SameLoad a b) :
    keptBlocks a = keptBlocks b := by
  rw [keptBlocks, keptBlocks, h.answer, h.contents]

theorem keptBlocks_loadText (s : Session) (text : Text) (filename : Option Text) :
    keptBlocks (s.loadText text filename) = openedBlocks s.rules text filename := by
  rw [loadText, openedBlocks]
  cases openText s.rules text filename <;> rfl

/-- Loading the bytes of a text comes to loading the text without its marks. -/
theorem sameLoad_unmarked (hname : menu.resolve encoding = .ok name)
    (hcharset : Charset.ofName name = .ok .utf8) (s : Session) (text : Text)
    (filename : Option Text) :
    SameLoad (s.load menu (.bytes (Utf8.encode text)) filename encoding)
      (s.loadText text.unmarked filename) := by
  rw [load, readFile_encode hname hcharset]
  dsimp only
  rcases s.loadText_cases text.unmarked filename with ⟨failure, heq⟩ | ⟨l, -, heq⟩
  · rw [heq]
    exact ⟨rfl, rfl⟩
  · rw [heq]
    exact ⟨rfl, contents_keepRaw _ _⟩

/-- Loading the bytes of a text comes to loading the text just where marks make no difference. -/
theorem sameLoad_iff (hname : menu.resolve encoding = .ok name)
    (hcharset : Charset.ofName name = .ok .utf8) (s : Session) (text : Text)
    (filename : Option Text) :
    SameLoad (s.load menu (.bytes (Utf8.encode text)) filename encoding)
        (s.loadText text filename) ↔ Unaffected s.rules text filename := by
  have hunmarked := s.sameLoad_unmarked hname hcharset text filename
  constructor
  · intro hsame
    apply unaffected_of_openedBlocks
    rw [← keptBlocks_loadText, ← keptBlocks_loadText]
    exact hunmarked.keptBlocks_eq.symm.trans hsame.keptBlocks_eq
  · intro h
    rw [loadText, h.openText_eq, ← loadText] at hunmarked
    exact hunmarked

end Session

namespace Service

/-- Two answers that report alike: both fail alike, or both succeed with reports that agree in all
but the name of the file. -/
def SameReport (a b : Except Failure Response) : Prop :=
  (∃ failure, a = .error failure ∧ b = .error failure) ∨
    ∃ r r', a = .ok r ∧ b = .ok r' ∧ r.status = 200 ∧ r'.status = 200 ∧
      ∀ name, name ≠ "filename" → r.field? name = r'.field? name

/-- The answer to a text that has been loaded, or its failure. -/
def reported (rules : Rules) (text : Text) (filename : Option Text) : Except Failure Response :=
  (Session.openText rules text filename).map fun l => .json 200 (reportJson l.document l.counts)

theorem analyze_eq (settings : Settings) (text : Text) :
    Service.analyze settings text = reported settings.rules text none := by
  rw [Service.analyze, opened, Session.loadText, reported]
  cases Session.openText settings.rules text none <;> rfl

theorem answerClientFailure_reported (rules : Rules) (text : Text) (filename : Option Text) :
    answerClientFailure (reported rules text filename) = reported rules text filename := by
  rw [reported]
  cases hl : Session.openText rules text filename with
  | ok l => rfl
  | error failure => cases Session.isOverflow_of_openText hl <;> rfl

variable {menu : EncodingMenu} {encoding : Option Text} {name : Text} {settings : Settings}

theorem upload_encode (hname : settings.menu.resolve encoding = .ok name)
    (hcharset : Charset.ofName name = .ok .utf8) {text filename : Text}
    (hsize : ((Utf8.encode text).length : Int) ≤ settings.maxFileSize) :
    upload settings ⟨filename, Utf8.encode text, encoding⟩ =
      reported settings.rules text.unmarked (some filename) := by
  rw [← answerClientFailure_reported, upload, if_neg (Int.not_lt.2 hsize)]
  rw [Session.load, Session.readFile_encode hname hcharset, reported]
  simp only [Session.loadText]
  cases Session.openText settings.rules text.unmarked (some filename) <;> rfl

theorem field?_reportJson {d d' : Document} {counts : IssueCounts} (h : d.entries = d'.entries)
    {name : String} (hname : name ≠ "filename") :
    (reportJson d counts).field? name = (reportJson d' counts).field? name := by
  have hname : ("filename" == name) = false := beq_false_of_ne hname.symm
  simp only [reportJson, Json.field?, List.reverse_cons, List.find?_append, Document.malformed, h]
  simp [hname]

/-- The block that an entry of a report shows. -/
def shownBlock (entry : Json) : Text :=
  match entry.field? "raw" with
  | some (.str block) => block
  | _ => []

/-- The blocks that the entries of a reported list show. -/
def shownBlocks (answer : Except Failure Response) : Except Failure (List Text) :=
  answer.map fun r =>
    match r.field? "entries" with
    | some (.arr entries) => entries.map shownBlock
    | _ => []

theorem SameReport.shownBlocks_eq {a b : Except Failure Response} (h : SameReport a b) :
    shownBlocks a = shownBlocks b := by
  rcases h with ⟨failure, rfl, rfl⟩ | ⟨r, r', rfl, rfl, -, -, hfields⟩
  · rfl
  · simp only [shownBlocks, Except.map, hfields "entries" (by decide)]

theorem shownBlocks_reported (rules : Rules) (text : Text) (filename : Option Text) :
    shownBlocks (reported rules text filename) = Session.openedBlocks rules text none := by
  rw [reported, Session.openedBlocks, Session.openText_renamed rules text none]
  cases Session.openText rules text none with
  | error failure => rfl
  | ok l =>
    have hshown : (l.document.entries.map entryJson).map shownBlock =
        l.document.entries.map (·.raw) := by
      rw [List.map_map]
      rfl
    exact congrArg Except.ok hshown

/-- The report on the bytes of a text is that on the text just where marks make no difference. -/
theorem sameReport_iff (hname : settings.menu.resolve encoding = .ok name)
    (hcharset : Charset.ofName name = .ok .utf8) {text filename : Text}
    (hsize : ((Utf8.encode text).length : Int) ≤ settings.maxFileSize) :
    SameReport (upload settings ⟨filename, Utf8.encode text, encoding⟩)
        (Service.analyze settings text) ↔
      Session.Unaffected settings.rules text none := by
  rw [upload_encode hname hcharset hsize, analyze_eq]
  constructor
  · intro hsame
    have hblocks := hsame.shownBlocks_eq
    rw [shownBlocks_reported, shownBlocks_reported] at hblocks
    exact Session.unaffected_of_openedBlocks hblocks
  · intro h
    rw [reported, reported, Session.openText_renamed settings.rules text.unmarked none,
      h.openText_eq]
    cases Session.openText settings.rules text none with
    | error failure => exact .inl ⟨failure, rfl, rfl⟩
    | ok l =>
      refine .inr ⟨_, _, rfl, rfl, rfl, rfl, fun field hfield => ?_⟩
      have hentries : (l.document.renamed (some filename)).entries = l.document.entries := rfl
      exact field?_reportJson hentries hfield

end Service

namespace Session

/-- Loading the bytes of a text gives what loading the text gives, and so do their reports, just
where byte order marks make no difference. -/
theorem load_encode_iff {menu : EncodingMenu} {encoding : Option Text} {name : Text}
    (hname : menu.resolve encoding = .ok name) (hcharset : Charset.ofName name = .ok .utf8)
    (text : Text) :
    (∀ (s : Session) (filename : Option Text),
      SameLoad (s.load menu (.bytes (Utf8.encode text)) filename encoding)
          (s.loadText text filename) ↔ Unaffected s.rules text filename) ∧
      ∀ (settings : Settings) (filename : Text), settings.menu = menu →
        ((Utf8.encode text).length : Int) ≤ settings.maxFileSize →
        (Service.SameReport (Service.upload settings ⟨filename, Utf8.encode text, encoding⟩)
            (Service.analyze settings text) ↔ Unaffected settings.rules text none) := by
  refine ⟨fun s filename => sameLoad_iff hname hcharset s text filename, ?_⟩
  rintro settings filename rfl hsize
  exact Service.sameReport_iff hname hcharset hsize

/-- A mark behind a blank line stays where it is, in the bytes as in the text. -/
theorem load_encode_innerMark :
    let menu := Settings.menu {}
    let text : Text := "\n\uFEFF2\n00:00:01,000 --> 00:00:02,000\n\uFEFFHi".toList
    let new : Session := ⟨{}, none⟩
    menu.resolve (some "u8".toList) = .ok "utf-8".toList ∧
      Charset.ofName "utf-8".toList = .ok .utf8 ∧
      SameLoad (new.load menu (.bytes (Utf8.encode text)) none (some "u8".toList))
        (new.loadText text none) ∧
      ((new.loadText text none).1.contents.map fun c => c.1.entries.map (·.index)) = some [1] := by
  intro menu text new
  have hname : menu.resolve (some "u8".toList) = .ok "utf-8".toList := by decide +kernel
  have hcharset : Charset.ofName "utf-8".toList = .ok .utf8 := by decide +kernel
  refine ⟨hname, hcharset, ?_, by decide +kernel⟩
  obtain ⟨hload, -⟩ := load_encode_iff hname hcharset text
  exact (hload new none).2 (.inl (by decide))

/-- A mark before the index is no part of what the bytes give, but it hides the index of the text,
which gives way to the position. A reload of the text finds the index. -/
theorem load_encode_marked :
    let menu := Settings.menu {}
    let utf8 := some "utf-8".toList
    let text : Text := "\uFEFF5\n00:00:01,000 --> 00:00:02,000\nHi".toList
    let indices (outcome : Session × Except Failure IssueCounts) : Option (List Int) :=
      outcome.1.contents.map fun c => c.1.entries.map (·.index)
    let new : Session := ⟨{}, none⟩
    let ofBytes := new.load menu (.bytes (Utf8.encode text)) none utf8
    let ofText := new.loadText text none
    indices ofBytes = some [5] ∧ indices ofText = some [1] ∧
      indices (ofText.1.reload menu utf8) = some [5] ∧ ¬ SameLoad ofBytes ofText := by
  intro menu utf8 text indices new ofBytes ofText
  have hbytes : indices ofBytes = some [5] := by decide +kernel
  have htext : indices ofText = some [1] := by decide +kernel
  refine ⟨hbytes, htext, by decide +kernel, ?_⟩
  intro hsame
  have hindices := congrArg (Option.map fun c => c.1.entries.map (·.index)) hsame.contents
  exact absurd (hbytes.symm.trans (hindices.trans htext)) (by decide)

end Session

end CueCheck
