import CueCheck.Proofs.FixEffects
import CueCheck.Proofs.SessionRuns

/-!
What a reload reads: the bytes of the last load that succeeded, whatever has happened since.
-/

namespace CueCheck

/-- What a document was loaded from: its bytes, and the name of the file. -/
structure Origin where
  raw : Bytes
  filename : Option Text
deriving DecidableEq, Repr

def Loaded.origin (l : Loaded) : Origin := ⟨l.raw, l.document.filename⟩

/-- What a load loads from, unless it fails; a text stands for its bytes in UTF-8. -/
def Command.origin? : Command → Option Origin
  | load source filename _ => source.read.toOption.map (⟨·, filename⟩)
  | loadText text filename => some ⟨Utf8.encode text, filename⟩
  | reload _ | fix _ _ | download _ => none

namespace Session

variable {menu : EncodingMenu} {s s' : Session} {command : Command}

def origin? (s : Session) : Option Origin := s.loaded.map Loaded.origin

/-- What a command loads from, if it is a load that succeeds. -/
def opened? (menu : EncodingMenu) (s : Session) (command : Command) : Option Origin :=
  if (s.run menu command).2.isOk then command.origin? else none

/-- What the loads in a run load from, in their order; those that fail do not count. -/
def opened (menu : EncodingMenu) : Session → List Command → List Origin
  | _, [] => []
  | s, command :: commands =>
    (s.opened? menu command).toList ++ opened menu (s.run menu command).1 commands

theorem opened?_of_error {failure : Failure} (h : s.run menu command = (s', .error failure)) :
    s.opened? menu command = none := by
  rw [opened?, h]
  rfl

theorem opened?_of_ok {answer : Answer} (h : s.run menu command = (s', .ok answer)) :
    s.opened? menu command = command.origin? := by
  rw [opened?, h]
  rfl

theorem opened?_eq_none (h : command.origin? = none) : s.opened? menu command = none := by
  rw [opened?, h]
  split <;> rfl

theorem origin_of_openText {rules : Rules} {text : Text} {filename : Option Text} {l : Loaded}
    (h : openText rules text filename = .ok l) : l.origin = ⟨Utf8.encode text, filename⟩ := by
  rw [openText] at h
  obtain ⟨d, hparse, h⟩ := exists_of_bind_eq_ok h
  obtain ⟨counts, -, h⟩ := exists_of_bind_eq_ok h
  injection h with h
  rw [← h, ← (Document.readBlocks_of_parse hparse).2]
  rfl

/-- A load fails and leaves the session, or brings a document from the bytes of its source. -/
theorem load_origin (menu : EncodingMenu) (s : Session) (source : Source)
    (filename encoding : Option Text) :
    (∃ failure, s.load menu source filename encoding = (s, .error failure)) ∨
      ∃ l raw, source.read = .ok raw ∧ l.origin = ⟨raw, filename⟩ ∧
        s.load menu source filename encoding = ({ s with loaded := some l }, .ok l.counts) := by
  rcases s.load_cases menu source filename encoding with
    hfailed | ⟨raw, text, l, hread, hl, heq⟩
  · exact .inl hfailed
  · obtain ⟨name, decoded, -, hraw, -⟩ := readFile_eq_ok hread
    have hname : l.document.filename = filename := congrArg Origin.filename (origin_of_openText hl)
    exact .inr ⟨{ l with raw }, raw, hraw, by rw [Loaded.origin, hname], heq⟩

/-- After a command the document comes from what the command has loaded; any other command leaves
the origin, and every command leaves the rules. -/
theorem origin?_run (menu : EncodingMenu) (s : Session) (command : Command) :
    (s.run menu command).1.origin? = (s.opened? menu command).or s.origin? ∧
      (s.run menu command).1.rules = s.rules := by
  have hfailed {failure : Failure} (hrun : s.run menu command = (s, .error failure)) :
      (s.run menu command).1.origin? = (s.opened? menu command).or s.origin? ∧
        (s.run menu command).1.rules = s.rules := by
    rw [opened?_of_error hrun, hrun]
    exact ⟨rfl, rfl⟩
  cases command with
  | load source filename encoding =>
    rcases s.load_origin menu source filename encoding with
      ⟨failure, heq⟩ | ⟨l, raw, hraw, horigin, heq⟩
    · apply hfailed
      rw [run, heq]
      rfl
    · have hrun : s.run menu (.load source filename encoding) =
          ({ s with loaded := some l }, .ok (.counted l.counts)) := by
        rw [run, heq]
        rfl
      rw [opened?_of_ok hrun, hrun, Command.origin?, hraw]
      exact ⟨congrArg some horigin, rfl⟩
  | loadText text filename =>
    rcases s.loadText_cases text filename with ⟨failure, heq⟩ | ⟨l, hl, heq⟩
    · apply hfailed
      rw [run, heq]
      rfl
    · have hrun : s.run menu (.loadText text filename) =
          ({ s with loaded := some l }, .ok (.counted l.counts)) := by
        rw [run, heq]
        rfl
      rw [opened?_of_ok hrun, hrun]
      exact ⟨congrArg some (origin_of_openText hl), rfl⟩
  | reload encoding =>
    rw [opened?_eq_none rfl, Option.none_or, run]
    rcases s.reload_cases menu encoding with ⟨failure, heq⟩ | ⟨kept, hkept, hload⟩
    · rw [heq]
      exact ⟨rfl, rfl⟩
    · rw [hload]
      rcases s.load_origin menu (.bytes kept.raw) kept.document.filename encoding with
        ⟨failure, heq⟩ | ⟨l, raw, hraw, horigin, heq⟩
      · rw [heq]
        exact ⟨rfl, rfl⟩
      · -- The bytes and the name that the session has kept are those of the new document.
        injection hraw with hraw
        have hs : s.origin? = some ⟨raw, kept.document.filename⟩ := by
          rw [origin?, hkept, ← hraw]
          rfl
        rw [heq, hs]
        exact ⟨congrArg some horigin, rfl⟩
  | fix operation confirmed =>
    rw [opened?_eq_none rfl, Option.none_or, run, fix, current]
    cases hl : s.loaded with
    | none => exact ⟨rfl, rfl⟩
    | some l =>
      have hs : s.origin? = some ⟨l.raw, l.document.filename⟩ := by
        rw [origin?, hl]
        rfl
      have hname := (Document.mayGive_applyFix ⟨s.rules, operation, confirmed⟩ l.document).2
      rw [hs, ← hname]
      exact ⟨rfl, rfl⟩
  | download encoding =>
    rw [opened?_eq_none rfl]
    exact ⟨rfl, rfl⟩

theorem origin?_runAll (menu : EncodingMenu) (s : Session) (commands : List Command) :
    (s.runAll menu commands).origin? = (s.opened menu commands).getLast?.or s.origin? ∧
      (s.runAll menu commands).rules = s.rules := by
  induction commands generalizing s with
  | nil => exact ⟨rfl, rfl⟩
  | cons command commands ih =>
    obtain ⟨hstep, hrules⟩ := s.origin?_run menu command
    obtain ⟨hrun, hkept⟩ := ih (s.run menu command).1
    have hlast : (s.opened? menu command).toList.getLast? = s.opened? menu command := by
      cases s.opened? menu command <;> rfl
    refine ⟨?_, hkept.trans hrules⟩
    rw [opened, List.getLast?_append, hlast, Option.or_assoc, ← hstep]
    exact hrun

/-- A load does not depend on what was there before: it gives what it gives in a new session, or
fails as it fails there. -/
theorem load_eq_load_new (menu : EncodingMenu) (s : Session) (source : Source)
    (filename encoding : Option Text) :
    let new : Session := ⟨s.rules, none⟩
    (∀ s' counts, new.load menu source filename encoding = (s', .ok counts) →
        s.load menu source filename encoding = (s', .ok counts)) ∧
      ∀ failure, (new.load menu source filename encoding).2 = .error failure →
        s.load menu source filename encoding = (s, .error failure) := by
  intro new
  have hfailed {answer : Except Failure IssueCounts} {failure : Failure}
      (hanswer : answer = .error failure) :
      (∀ s' counts, (new, answer) = (s', .ok counts) → (s, answer) = (s', .ok counts)) ∧
        ∀ other, answer = .error other → (s, answer) = (s, .error other) := by
    subst hanswer
    constructor
    · intro s' counts h
      cases h
    · intro other h
      rw [h]
  simp only [load]
  cases readFile menu source encoding with
  | error failure => exact hfailed rfl
  | ok file =>
    obtain ⟨raw, text⟩ := file
    simp only [loadText]
    cases openText s.rules text filename with
    | error failure => exact hfailed rfl
    | ok l =>
      constructor
      · intro s' counts h
        exact h
      · intro failure h
        cases h

/-- Wherever a run has come, a reload is a load of the same bytes in a new session, those of the
last load that succeeded: it gives the same document, counts and bytes, or fails in the same way and
leaves the session. -/
theorem reload_eq_load (menu : EncodingMenu) (rules : Rules) (commands : List Command) {l : Loaded}
    (hl : (runAll menu ⟨rules, none⟩ commands).loaded = some l) :
    let new : Session := ⟨rules, none⟩
    let s := new.runAll menu commands
    ∃ origin, (new.opened menu commands).getLast? = some origin ∧ ∀ encoding,
      (∀ s' counts, new.load menu (.bytes origin.raw) origin.filename encoding = (s', .ok counts) →
        s.reload menu encoding = (s', .ok counts)) ∧
      ∀ failure, (new.load menu (.bytes origin.raw) origin.filename encoding).2 = .error failure →
        s.reload menu encoding = (s, .error failure) := by
  intro new s
  obtain ⟨horigin, hrules⟩ := new.origin?_runAll menu commands
  have hlast : (new.opened menu commands).getLast? = some l.origin := by
    have hnew : new.origin? = none := rfl
    rw [hnew, Option.or_none, origin?, hl] at horigin
    exact horigin.symm
  refine ⟨l.origin, hlast, fun encoding => ?_⟩
  have hreload : s.reload menu encoding =
      s.load menu (.bytes l.origin.raw) l.origin.filename encoding := by
    rw [reload, current, hl]
    rfl
  have hload := s.load_eq_load_new menu (.bytes l.origin.raw) l.origin.filename encoding
  rw [hrules] at hload
  rw [hreload]
  exact hload

/-- An Arabic file is loaded in an encoding that gives other letters, and fixed. The reloads, the
loads and the download after that fail or give other letters again; the right encoding still gives
the text of the file, mark-up and all. -/
theorem reload_arabic :
    let menu : EncodingMenu := ⟨["u8".toList, "cp1252".toList, "cp1256".toList], "u8".toList⟩
    let raw : Bytes := Utf8.encode "1\n00:00:01,000 --> 00:00:03,000\n<i>".toList ++
      [0xD3, 0xE1, 0xC7, 0xE3] ++ Utf8.encode "</i>".toList
    let commands : List Command := [
      .loadText "1".toList none,
      .load (.bytes raw) (some "film.srt".toList) (some "1252".toList),
      .fix "strip_markup".toList true,
      .reload none,
      .load (.failing "gone".toList) (some "other.srt".toList) none,
      .load (.bytes [0xFF]) (some "other.srt".toList) none,
      .download (some "1256".toList),
      .reload (some "1252".toList)]
    let new : Session := ⟨{}, none⟩
    let s := new.runAll menu commands
    (s.loaded.map fun l => l.document.entries.map (·.text)) = some ["<i>ÓáÇã</i>".toList] ∧
      (new.opened menu commands).getLast? = some ⟨raw, some "film.srt".toList⟩ ∧
      s.reload menu none = (s, .error (.undecodable "u8".toList 35)) ∧
      ∃ s' counts, s.reload menu (some "1256".toList) = (s', .ok counts) ∧
        (s'.loaded.map fun l => l.document.entries.map (·.text)) =
          some ["<i>سلام</i>".toList] := by
  intro menu raw commands new s
  have htexts : (s.loaded.map fun l => l.document.entries.map (·.text)) =
      some ["<i>ÓáÇã</i>".toList] := by decide +kernel
  have hopened : (new.opened menu commands).getLast? = some ⟨raw, some "film.srt".toList⟩ := by
    decide +kernel
  have hwrong : (new.load menu (.bytes raw) (some "film.srt".toList) none).2 =
      .error (.undecodable "u8".toList 35) := by decide +kernel
  have hright : (new.load menu (.bytes raw) (some "film.srt".toList) (some "1256".toList)).2 =
      .ok {} := by decide +kernel
  have hreloaded {outcome : Session × Except Failure IssueCounts} {counts : IssueCounts}
      (h : outcome.2 = .ok counts) : outcome = (outcome.1, .ok counts) := by rw [← h]
  obtain ⟨l, hl, -⟩ := Option.map_eq_some_iff.1 htexts
  obtain ⟨origin, horigin, hreload⟩ := reload_eq_load menu {} commands hl
  rw [hopened, Option.some.injEq] at horigin
  subst horigin
  refine ⟨htexts, hopened, (hreload _).2 _ hwrong, ?_⟩
  exact ⟨_, _, (hreload _).1 _ _ (hreloaded hright), by decide +kernel⟩

end Session

end CueCheck
