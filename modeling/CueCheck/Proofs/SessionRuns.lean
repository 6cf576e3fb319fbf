import CueCheck.Proofs.CharsetLengths
import CueCheck.Proofs.CurrentIssues
import CueCheck.Proofs.DocumentReading
import CueCheck.Session

/-!
Runs of a session: after any commands the issues and counts of the current document are up to date,
and a command that fails changes nothing.
-/

namespace CueCheck

/-- The integer thresholds are at most `10 ^ 12` in absolute value; any speed will do. -/
structure Rules.Moderate (rules : Rules) : Prop where
  minDuration : rules.minDuration.natAbs ≤ 10 ^ 12
  maxDuration : rules.maxDuration.natAbs ≤ 10 ^ 12
  maxLineLength : rules.maxLineLength.natAbs ≤ 10 ^ 12
  maxLines : rules.maxLines.natAbs ≤ 10 ^ 12
  overlapGap : rules.overlapGap.natAbs ≤ 10 ^ 12

/-- Every entry is of moderate size, and malformed blocks have no times and no text. -/
def Document.Moderate (d : Document) : Prop :=
  ∀ e ∈ d.entries, e.Moderate ∧ (e.malformed = true → e.IsLost)

/-- The document has the issues of a new check and is ready for the next fix, and the counts are
those of its issues. -/
structure Loaded.IsCurrent (rules : Rules) (l : Loaded) : Prop where
  moderate : l.document.Moderate
  current : AreCurrent rules l.document.entries
  counted : ∀ kind, l.counts.get kind = issueTotal kind l.document.entries

/-- The loaded document is up to date, and its bytes are not too many for a reload. -/
structure Loaded.IsSound (rules : Rules) (l : Loaded) : Prop extends l.IsCurrent rules where
  raw_length : l.raw.length < 2 ^ 69

section Documents

variable {d : Document} {rules : Rules}

/-- The timing fix moves no end far beyond the starts. -/
theorem Entry.fixedStop_lt {e : Entry} {next? : Option Entry} (hr : rules.Moderate)
    (hstart : e.start < 362440000) (hstop : e.stop < 10 ^ 12 + 362440000)
    (hnext : ∀ next ∈ next?, next.start < 362440000) :
    e.fixedStop rules next? < 10 ^ 12 + 362440000 := by
  have hmin := hr.minDuration
  have hgap := hr.overlapGap
  have hcleared : e.clearedStop rules next? < 10 ^ 12 + 362440000 := by
    cases next? with
    | none => exact hstop
    | some next =>
      have hn := hnext next rfl
      rw [Entry.clearedStop]
      split <;> omega
  simp only [Entry.fixedStop]
  split <;> omega

theorem Entry.Moderate.fixedStop {e : Entry} {next? : Option Entry} (hr : rules.Moderate)
    (he : e.Moderate) (hnext : ∀ next ∈ next?, next.Moderate) :
    Entry.Moderate { e with stop := e.fixedStop rules next? } := by
  have hmin := hr.minDuration
  have hgap := hr.overlapGap
  have h₁ := he.start_nonneg
  have h₃ := he.stop_ge
  have hcleared : -10 ^ 12 ≤ e.clearedStop rules next? := by
    cases next? with
    | none => exact h₃
    | some next =>
      have hn := (hnext next rfl).start_nonneg
      rw [Entry.clearedStop]
      split <;> omega
  have hstop : -10 ^ 12 ≤ e.fixedStop rules next? := by
    simp only [Entry.fixedStop]
    split <;> omega
  have hlt := Entry.fixedStop_lt hr he.start_lt he.stop_lt fun next hn => (hnext next hn).start_lt
  exact { he with stop_ge := hstop, stop_lt := hlt }

/-- No fix brings times out of bounds. -/
theorem Document.Moderate.run (hr : rules.Moderate) (h : d.Moderate) (fix : Fix) :
    (fix.run rules d).1.Moderate := by
  refine fix.forall_run (P := fun e => e.Moderate ∧ (e.malformed = true → e.IsLost)) ?_ ?_ h
  · intro e next? hm he hnext
    have hstop := he.1.fixedStop hr fun next hn => (hnext next hn).1
    exact ⟨hstop, Entry.isLost_of_subtitle hm⟩
  · intro e text hm he hsub
    have hlen := Nat.lt_of_le_of_lt hsub.length_le he.1.text_length
    exact ⟨{ he.1 with text_length := hlen }, Entry.isLost_of_subtitle hm⟩

/-- The analysis of a document of moderate size succeeds and brings it up to date. -/
theorem Document.Moderate.analyze_eq_ok (h : d.Moderate) (rules : Rules) :
    ∃ counts, (d.analyze rules).2 = .ok counts ∧
      ∀ raw, Loaded.IsCurrent rules ⟨(d.analyze rules).1, counts, raw⟩ := by
  obtain ⟨counts, hcounts⟩ := checkEntries_eq_ok rules fun e he => (h e he).1
  obtain ⟨hcurrent, htotal⟩ := checkEntries_spec (fun e he => (h e he).2) hcounts
  have hmoderate : (d.analyze rules).1.Moderate := by
    apply forall_checkEntries rules _ h
    intro e issues hm he
    exact ⟨{ he.1 with }, Entry.isLost_of_subtitle hm⟩
  exact ⟨counts, hcounts, fun raw => ⟨hmoderate, hcurrent, htotal⟩⟩

/-- A fix of a document of moderate size succeeds and leaves it up to date. -/
theorem Document.Moderate.apply_eq_ok (hr : rules.Moderate) (h : d.Moderate) (fix : Fix) :
    ∃ fixed report, fix.apply rules d = (fixed, .ok report) ∧
      ∀ raw, Loaded.IsCurrent rules ⟨fixed, report.counts, raw⟩ := by
  obtain ⟨counts, hcounts, hcurrent⟩ := (h.run hr fix).analyze_eq_ok rules
  refine ⟨_, ⟨fix, (fix.run rules d).2, counts⟩, ?_, hcurrent⟩
  rw [Fix.apply]
  simp only [hcounts]
  rfl

/-- A block that is no subtitle is read without times and text. -/
theorem Document.isLost_of_parse {content : Text} {filename : Option Text}
    (h : parse content filename = .ok d) {e : Entry} (he : e ∈ d.entries)
    (hm : e.malformed = true) : e.IsLost := by
  obtain ⟨block, -, n, -, hread⟩ := exists_read_of_readBlocks (readBlocks_of_parse h).1 he
  rcases Block.read_cases hread with ⟨fault, rfl⟩ | ⟨first, timeLine, text, times, -, -, hs⟩
  · exact Entry.isLost_ofMalformed n block fault.message
  · obtain ⟨index, -, -, -, -, -, hnot⟩ := Block.subtitle_eq_ok hs
    rw [hm] at hnot
    cases hnot

theorem Document.moderate_of_parse {content : Text} {filename : Option Text}
    (h : parse content filename = .ok d) (hc : content.length < 2 ^ 69) : d.Moderate := by
  intro e he
  refine ⟨?_, isLost_of_parse h he⟩
  rcases Bool.eq_false_or_eq_true e.malformed with hm | hm
  · exact (isLost_of_parse h he hm).moderate
  · have hr := isRead_of_parse h (mem_subtitles.2 ⟨he, hm⟩)
    have h₁ := hr.start_nonneg
    have h₂ := hr.start_lt
    have h₃ := hr.stop_nonneg
    have h₄ := hr.stop_lt
    have htext : e.text.length ≤ content.length :=
      (hr.text_sublist.trans List.filter_sublist).length_le
    exact ⟨h₁, h₂, by omega, by omega, by omega⟩

end Documents

namespace Command

/-- The text that a command brings from outside, with the marks that may stand before it. -/
def content? (menu : EncodingMenu) : Command → Option Text
  | load source _ encoding => do
    let name ← (menu.resolve encoding).toOption
    let raw ← source.read.toOption
    let decoded ← (decodeData name raw).toOption
    decoded.toOption
  | loadText text _ => some text
  | reload _ | fix _ _ | download _ => none

/-- The command brings no text of `10 ^ 20` characters or more. -/
def Short (menu : EncodingMenu) (command : Command) : Prop :=
  ∀ text ∈ command.content? menu, text.length < 10 ^ 20

instance (menu : EncodingMenu) (command : Command) : Decidable (command.Short menu) :=
  inferInstanceAs (Decidable (∀ text ∈ command.content? menu, text.length < 10 ^ 20))

end Command

namespace Session

variable {menu : EncodingMenu} {s : Session} {l : Loaded}

/-- The current document, if there is one, is sound. -/
def Sound (s : Session) : Prop := ∀ l ∈ s.loaded, l.IsSound s.rules

theorem readFile_eq_ok {source : Source} {encoding : Option Text} {raw : Bytes} {text : Text}
    (h : readFile menu source encoding = .ok (raw, text)) :
    ∃ name decoded, menu.resolve encoding = .ok name ∧ source.read = .ok raw ∧
      decodeData name raw = .ok (.ok decoded) ∧ text.length ≤ decoded.length := by
  rw [readFile] at h
  obtain ⟨name, hname, h⟩ := exists_of_bind_eq_ok h
  obtain ⟨bytes, hbytes, h⟩ := exists_of_bind_eq_ok h
  obtain ⟨read, hread, h⟩ := exists_of_bind_eq_ok h
  injection h with h
  injection h with hraw htext
  subst hraw htext
  obtain ⟨decoded, hdecoded, hlen⟩ := exists_of_readText hread
  exact ⟨name, decoded, hname, hbytes, hdecoded, hlen⟩

/-- A file that was read has at least as many bytes as its text has characters. -/
theorem length_of_readFile {source : Source} {encoding : Option Text} {raw : Bytes} {text : Text}
    (h : readFile menu source encoding = .ok (raw, text)) : text.length ≤ raw.length := by
  obtain ⟨name, decoded, -, -, hdecoded, hlen⟩ := readFile_eq_ok h
  exact Nat.le_trans hlen (length_of_decodeData hdecoded).1

theorem raw_length_lt_of_short {source : Source} {filename encoding : Option Text} {raw : Bytes}
    {text : Text} (hc : (Command.load source filename encoding).Short menu)
    (h : readFile menu source encoding = .ok (raw, text)) : raw.length < 2 ^ 69 := by
  obtain ⟨name, decoded, hname, hraw, hdecoded, -⟩ := readFile_eq_ok h
  have hshort : decoded.length < 10 ^ 20 := by
    apply hc
    simp [Command.content?, hname, hraw, hdecoded, Except.toOption]
  have hdata := (length_of_decodeData hdecoded).2
  omega

theorem isCurrent_of_openText {rules : Rules} {text : Text} {filename : Option Text}
    (h : openText rules text filename = .ok l) (ht : text.length < 2 ^ 69) :
    l.IsCurrent rules ∧ l.raw = Utf8.encode text := by
  rw [openText] at h
  obtain ⟨d, hparse, h⟩ := exists_of_bind_eq_ok h
  obtain ⟨counts, hcounts, hcurrent⟩ :=
    (Document.moderate_of_parse hparse ht).analyze_eq_ok rules
  simp only [hcounts] at h
  injection h with h
  rw [← h]
  exact ⟨hcurrent _, rfl⟩

/-- Loading a text fails and leaves the session, or puts the text in place of what was there. -/
theorem loadText_cases (s : Session) (text : Text) (filename : Option Text) :
    (∃ failure, s.loadText text filename = (s, .error failure)) ∨
      ∃ l, openText s.rules text filename = .ok l ∧
        s.loadText text filename = ({ s with loaded := some l }, .ok l.counts) := by
  rw [loadText]
  cases openText s.rules text filename with
  | error failure => exact .inl ⟨failure, rfl⟩
  | ok l => exact .inr ⟨l, rfl, rfl⟩

/-- Loading a file fails and leaves the session, or puts its text and its bytes in place of what was
there. -/
theorem load_cases (menu : EncodingMenu) (s : Session) (source : Source)
    (filename encoding : Option Text) :
    (∃ failure, s.load menu source filename encoding = (s, .error failure)) ∨
      ∃ raw text l, readFile menu source encoding = .ok (raw, text) ∧
        openText s.rules text filename = .ok l ∧
        s.load menu source filename encoding =
          ({ s with loaded := some { l with raw } }, .ok l.counts) := by
  rw [load]
  cases hread : readFile menu source encoding with
  | error failure => exact .inl ⟨failure, rfl⟩
  | ok file =>
    obtain ⟨raw, text⟩ := file
    rcases s.loadText_cases text filename with ⟨failure, heq⟩ | ⟨l, hl, heq⟩
    · exact .inl ⟨failure, by simp only [heq]⟩
    · exact .inr ⟨raw, text, l, rfl, hl, by simp only [heq]; rfl⟩

theorem isSound_of_load {rules : Rules} {source : Source} {filename encoding : Option Text}
    {raw : Bytes} {text : Text} (hread : readFile menu source encoding = .ok (raw, text))
    (hl : openText rules text filename = .ok l) (hraw : raw.length < 2 ^ 69) :
    Loaded.IsSound rules { l with raw } := by
  have hlen := Nat.lt_of_le_of_lt (length_of_readFile hread) hraw
  exact { (isCurrent_of_openText hl hlen).1 with raw_length := hraw }

/-- A reload reads the bytes that the session has kept. -/
theorem reload_cases (menu : EncodingMenu) (s : Session) (encoding : Option Text) :
    (∃ failure, s.reload menu encoding = (s, .error failure)) ∨
      ∃ l ∈ s.loaded, s.reload menu encoding =
        s.load menu (.bytes l.raw) l.document.filename encoding := by
  rw [reload, current]
  cases s.loaded with
  | none => exact .inl ⟨_, rfl⟩
  | some l => exact .inr ⟨l, rfl, rfl⟩

/-- A fix is refused and leaves the session, or it succeeds and brings the document up to date. -/
theorem Sound.fix_cases (hs : s.Sound) (hr : s.rules.Moderate) (operation : Text)
    (confirmed : Bool) :
    (∃ failure, s.fix operation confirmed = (s, .error failure)) ∨
      ∃ l report, s.fix operation confirmed = ({ s with loaded := some l }, .ok report) ∧
        l.IsSound s.rules := by
  obtain ⟨rules, loaded⟩ := s
  cases loaded with
  | none => exact .inl ⟨_, rfl⟩
  | some l =>
    simp only [fix, current, Document.applyFix]
    cases Fix.permitted operation confirmed with
    | error failure => exact .inl ⟨failure, rfl⟩
    | ok fix =>
      have hsound := hs l rfl
      obtain ⟨fixed, report, happly, hcurrent⟩ := hsound.moderate.apply_eq_ok hr fix
      simp only [happly]
      exact .inr ⟨_, report, rfl, { hcurrent l.raw with raw_length := hsound.raw_length }⟩

/-- A command fails or only reads, and leaves the session, or it succeeds and puts a document in
place of what was there, which is sound unless the command brings too long a text. -/
theorem Sound.run_cases (hs : s.Sound) (hr : s.rules.Moderate) (menu : EncodingMenu)
    (command : Command) :
    (∃ answer, s.run menu command = (s, answer)) ∨
      ∃ l answer, s.run menu command = ({ s with loaded := some l }, .ok answer) ∧
        (command.Short menu → l.IsSound s.rules) := by
  cases command with
  | load source filename encoding =>
    rcases s.load_cases menu source filename encoding with
      ⟨failure, heq⟩ | ⟨raw, text, l, hread, hl, heq⟩
    · exact .inl ⟨_, by rw [run, heq]; rfl⟩
    · refine .inr ⟨_, _, by rw [run, heq]; rfl, fun hc => ?_⟩
      exact isSound_of_load hread hl (raw_length_lt_of_short hc hread)
  | loadText text filename =>
    rcases s.loadText_cases text filename with ⟨failure, heq⟩ | ⟨l, hl, heq⟩
    · exact .inl ⟨_, by rw [run, heq]; rfl⟩
    · refine .inr ⟨l, _, by rw [run, heq]; rfl, fun hc => ?_⟩
      have htext : text.length < 10 ^ 20 := hc text rfl
      have hlen := Utf8.length_encode_le text
      obtain ⟨hcurrent, hraw⟩ := isCurrent_of_openText hl (by omega)
      exact { hcurrent with raw_length := by rw [hraw]; omega }
  | reload encoding =>
    rcases s.reload_cases menu encoding with ⟨failure, heq⟩ | ⟨kept, hkept, hload⟩
    · exact .inl ⟨_, by rw [run, heq]; rfl⟩
    · rcases s.load_cases menu (.bytes kept.raw) kept.document.filename encoding with
        ⟨failure, heq⟩ | ⟨raw, text, l, hread, hl, heq⟩
      · exact .inl ⟨_, by rw [run, hload, heq]; rfl⟩
      · -- No text comes from outside: the bytes that were kept are read again.
        refine .inr ⟨_, _, by rw [run, hload, heq]; rfl, fun _ => isSound_of_load hread hl ?_⟩
        obtain ⟨name, decoded, -, hraw, -⟩ := readFile_eq_ok hread
        injection hraw with hraw
        rw [← hraw]
        exact (hs kept hkept).raw_length
  | fix operation confirmed =>
    rcases hs.fix_cases hr operation confirmed with ⟨failure, heq⟩ | ⟨l, report, heq, hl⟩
    · exact .inl ⟨_, by rw [run, heq]; rfl⟩
    · exact .inr ⟨l, _, by rw [run, heq]; rfl, fun _ => hl⟩
  | download encoding => exact .inl ⟨_, rfl⟩

/-- A command keeps the rules, and keeps the session sound, whether it succeeds or fails. -/
theorem Sound.run (hs : s.Sound) (hr : s.rules.Moderate) {command : Command}
    (hc : command.Short menu) :
    (s.run menu command).1.Sound ∧ (s.run menu command).1.rules = s.rules := by
  rcases hs.run_cases hr menu command with ⟨answer, heq⟩ | ⟨l, answer, heq, hl⟩
  · rw [heq]
    exact ⟨hs, rfl⟩
  · rw [heq]
    refine ⟨fun l' hl' => ?_, rfl⟩
    injection hl' with hl'
    rw [← hl']
    exact hl hc

/-- A command that fails leaves the session as it was. -/
theorem Sound.run_eq_of_error (hs : s.Sound) (hr : s.rules.Moderate) {command : Command}
    {failure : Failure} (h : (s.run menu command).2 = .error failure) :
    (s.run menu command).1 = s := by
  rcases hs.run_cases hr menu command with ⟨answer, heq⟩ | ⟨l, answer, heq, -⟩
  · rw [heq]
  · rw [heq] at h
    cases h

/-- Commands keep the rules, and keep the session sound. -/
theorem Sound.runAll (hs : s.Sound) (hr : s.rules.Moderate) {commands : List Command}
    (hc : ∀ command ∈ commands, command.Short menu) :
    (s.runAll menu commands).Sound ∧ (s.runAll menu commands).rules = s.rules := by
  induction commands generalizing s with
  | nil => exact ⟨hs, rfl⟩
  | cons command commands ih =>
    obtain ⟨hstep, hrules⟩ := hs.run hr (hc command List.mem_cons_self)
    obtain ⟨hall, hkept⟩ := ih hstep (hrules ▸ hr) fun c hmem => hc c (List.mem_cons_of_mem _ hmem)
    exact ⟨hall, hkept.trans hrules⟩

/-- A session that nothing has been loaded into. -/
theorem sound_new (rules : Rules) : Sound ⟨rules, none⟩ := by
  intro l hl
  cases hl

/-- Wherever a run has come, a command that fails leaves the session as it was, document, counts and
bytes, and so does every download. -/
theorem run_failed_eq (menu : EncodingMenu) {rules : Rules} (hr : rules.Moderate)
    {commands : List Command} (hc : ∀ command ∈ commands, command.Short menu) (command : Command) :
    let s := runAll menu ⟨rules, none⟩ commands
    (∀ failure, (s.run menu command).2 = .error failure → (s.run menu command).1 = s) ∧
      ∀ encoding, (s.run menu (.download encoding)).1 = s := by
  intro s
  obtain ⟨hs, hrules⟩ := (sound_new rules).runAll hr hc
  have hmoderate : s.rules.Moderate := hrules ▸ hr
  exact ⟨fun _ => hs.run_eq_of_error hmoderate, fun _ => rfl⟩

/-- After a fix, a reload in an encoding that the file is not in fails and leaves the fixed text. -/
theorem run_failed_reload :
    let menu : EncodingMenu := ⟨["utf-8".toList, "utf-16".toList], "utf-8".toList⟩
    let commands : List Command := [
      .load (.bytes (Utf8.encode "1\n00:00:01,000 --> 00:00:03,000\n<i>One.</i>".toList)) none none,
      .fix "strip_markup".toList true]
    let s := runAll menu ⟨{}, none⟩ commands
    let reload := Command.reload (some "UTF16".toList)
    Rules.Moderate {} ∧ (∀ command ∈ commands, command.Short menu) ∧
      (s.loaded.map fun l => l.document.entries.map (·.text)) = some ["One.".toList] ∧
      (s.run menu reload).2 = .error (.undecodable "utf-16".toList 42) ∧
      (s.run menu reload).1 = s := by
  intro menu commands s reload
  have hr : Rules.Moderate {} := by constructor <;> decide
  have hc : ∀ command ∈ commands, command.Short menu := by decide +kernel
  have hfailed : (s.run menu reload).2 = .error (.undecodable "utf-16".toList 42) := by
    decide +kernel
  exact ⟨hr, hc, by decide +kernel, hfailed, (run_failed_eq menu hr hc reload).1 _ hfailed⟩

end Session

end CueCheck
