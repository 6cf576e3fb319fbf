import CueCheck.Proofs.SessionRuns
import CueCheck.Proofs.TimingFix
import CueCheck.Proofs.WideHours

/-!
Times as they are written: no run of a session gives a subtitle a time before the start, so that the
times shown and written are the times of the subtitle.
-/

namespace CueCheck

namespace Timestamp

open Numeral

/-- A text that starts with a timestamp is read as that timestamp. -/
theorem parse_of_wide? {t hours : Text} {c : Clock} (h : wide? t = some (hours, c))
    (hmax : hours.length ≤ maxNumeralDigits) :
    parse t = .ok { c with hours := value hours }.total := by
  have hhours : Numeral.read hours = .ok (value hours) := by rw [Numeral.read, if_pos hmax]
  rw [parse, Text.search_of_some h]
  simp only [hhours, bind, Except.bind]
  rfl

/-- A written clock is read with the whole run of digits as its hours. -/
theorem wide?_text {c : Clock} (hm : c.minutes < 100) (hs : c.seconds < 100)
    (hms : c.millis < 1000) : wide? c.text = some (padded 2 c.hours, { c with hours := 0 }) := by
  have hlen : 2 ≤ (padded 2 c.hours).length := by
    rw [length_padded]
    exact Nat.le_max_left _ _
  have hread := wide?_append (fun d => isDigit_of_mem_padded) hlen
    (isField_padded (by decide) hm) (isField_padded (by decide) hs)
    (isField_padded (by decide) hms) []
  simpa only [Clock.text, value_padded, List.append_nil, List.append_assoc, List.cons_append]
    using hread

/-- A written time is read as the time, and as zero where it lies before the start. -/
theorem parse_format {ms : Int} (h : (padded 2 (ms.toNat / 3600000)).length ≤ maxNumeralDigits) :
    parse (format ms) = .ok ms.toNat := by
  have hread : wide? (format ms) =
      some (padded 2 (ms.toNat / 3600000), { Clock.ofMillis ms.toNat with hours := 0 }) := by
    apply wide?_text
    · change ms.toNat / 60000 % 60 < 100
      omega
    · change ms.toNat / 1000 % 60 < 100
      omega
    · exact Nat.mod_lt _ (by decide)
  rw [parse_of_wide? hread h, value_padded]
  exact congrArg Except.ok (Clock.total_ofMillis ms.toNat)

end Timestamp

namespace Entry

/-- The times do not lie before the start, nor far beyond what can be read. -/
structure Timed (e : Entry) : Prop where
  start_nonneg : 0 ≤ e.start
  start_lt : e.start < 362440000
  stop_nonneg : 0 ≤ e.stop
  stop_lt : e.stop < 10 ^ 12 + 362440000

theorem IsLost.timed {e : Entry} (h : e.IsLost) : e.Timed := by
  constructor
  · exact Int.le_of_eq h.start_eq.symm
  · rw [h.start_eq]; decide
  · exact Int.le_of_eq h.stop_eq.symm
  · rw [h.stop_eq]; decide

theorem timed_of_parse {content : Text} {filename : Option Text} {d : Document}
    (h : Document.parse content filename = .ok d) : ∀ e ∈ d.entries, e.Timed := by
  intro e he
  rcases Bool.eq_false_or_eq_true e.malformed with hm | hm
  · exact (Document.isLost_of_parse h he hm).timed
  · have hr := Document.isRead_of_parse h (Document.mem_subtitles.2 ⟨he, hm⟩)
    have hlt := hr.stop_lt
    exact ⟨hr.start_nonneg, hr.start_lt, hr.stop_nonneg, by omega⟩

/-- An end that is cut to before the start of the file is put off to the shortest duration. -/
theorem Timed.fixedStop {rules : Rules} (hr : rules.Moderate) (hmin : 0 ≤ rules.minDuration)
    {e : Entry} {next? : Option Entry} (h : e.Timed) (hnext : ∀ next ∈ next?, next.Timed) :
    Timed { e with stop := e.fixedStop rules next? } := by
  have hstart := h.start_nonneg
  have hstretched := le_fixedStop rules e next?
  have hlow : 0 ≤ e.fixedStop rules next? := by omega
  have hhigh := fixedStop_lt hr h.start_lt h.stop_lt fun next hn => (hnext next hn).start_lt
  exact { h with stop_nonneg := hlow, stop_lt := hhigh }

/-- Such times are read as they are written. -/
theorem parse_format_of_lt {ms : Int} (h : 0 ≤ ms) (hlt : ms < 10 ^ 12 + 362440000) :
    (Timestamp.parse (Timestamp.format ms)).map Int.ofNat = .ok ms := by
  have hdigits : (Numeral.digits (ms.toNat / 3600000)).length ≤ 6 :=
    (Numeral.length_digits_le_iff (by decide)).2 (by omega)
  have hhours : (Numeral.padded 2 (ms.toNat / 3600000)).length ≤ maxNumeralDigits := by
    rw [Numeral.length_padded, maxNumeralDigits]
    omega
  rw [Timestamp.parse_format hhours, Except.map]
  exact congrArg Except.ok (Int.toNat_of_nonneg h)

end Entry

namespace Session

variable {menu : EncodingMenu} {s : Session} {P : Entry → Prop}

/-- Each entry of the current document, if there is one, has a property. -/
def Each (s : Session) (P : Entry → Prop) : Prop := ∀ l ∈ s.loaded, ∀ e ∈ l.document.entries, P e

/-- What entries have when they are read, and keep when they are checked and fixed. -/
structure Lasting (rules : Rules) (P : Entry → Prop) : Prop where
  read : ∀ {content filename d}, Document.parse content filename = .ok d → ∀ e ∈ d.entries, P e
  checked : ∀ e issues, P e → P { e with issues }
  retimed : ∀ e next?, P e → (∀ next ∈ next?, P next) →
    P { e with stop := e.fixedStop rules next? }
  edited : ∀ e text, P e → text.Sublist e.text → P { e with text }

theorem Lasting.openText (h : Lasting s.rules P) {text : Text} {filename : Option Text}
    {l : Loaded} (hl : openText s.rules text filename = .ok l) :
    ∀ e ∈ l.document.entries, P e := by
  rw [Session.openText] at hl
  obtain ⟨d, hparse, hl⟩ := exists_of_bind_eq_ok hl
  obtain ⟨counts, -, hl⟩ := exists_of_bind_eq_ok hl
  injection hl with hl
  rw [← hl]
  exact forall_checkEntries s.rules (fun e issues _ => h.checked e issues) (h.read hparse)

theorem Lasting.applyFix {rules : Rules} (h : Lasting rules P) {d : Document}
    (hd : ∀ e ∈ d.entries, P e) (word : Text) (confirmed : Bool) :
    ∀ e ∈ (d.applyFix rules word confirmed).1.entries, P e := by
  rw [Document.applyFix]
  cases Fix.permitted word confirmed with
  | error failure => exact hd
  | ok fix =>
    have hrun := fix.forall_run (fun e next? _ => h.retimed e next?)
      (fun e text _ => h.edited e text) hd
    exact forall_checkEntries rules (fun e issues _ => h.checked e issues) hrun

theorem Lasting.load (h : Lasting s.rules P) (hs : s.Each P) (source : Source)
    (filename encoding : Option Text) :
    (s.load menu source filename encoding).1.Each P ∧
      (s.load menu source filename encoding).1.rules = s.rules := by
  rcases s.load_cases menu source filename encoding with
    ⟨failure, heq⟩ | ⟨raw, text, l, -, hl, heq⟩
  · rw [heq]
    exact ⟨hs, rfl⟩
  · have hall := h.openText hl
    rw [heq]
    refine ⟨fun l' hl' => ?_, rfl⟩
    injection hl' with hl'
    rw [← hl']
    exact hall

/-- A command keeps what entries have, whether it succeeds or fails. -/
theorem Lasting.run (h : Lasting s.rules P) (hs : s.Each P) (command : Command) :
    (s.run menu command).1.Each P ∧ (s.run menu command).1.rules = s.rules := by
  cases command with
  | load source filename encoding => exact h.load hs source filename encoding
  | loadText text filename =>
    rw [Session.run]
    rcases s.loadText_cases text filename with ⟨failure, heq⟩ | ⟨l, hl, heq⟩
    · rw [heq]
      exact ⟨hs, rfl⟩
    · rw [heq]
      refine ⟨fun l' hl' => ?_, rfl⟩
      injection hl' with hl'
      rw [← hl']
      exact h.openText hl
  | reload encoding =>
    rw [Session.run]
    rcases s.reload_cases menu encoding with ⟨failure, heq⟩ | ⟨l, -, heq⟩
    · rw [heq]
      exact ⟨hs, rfl⟩
    · rw [heq]
      exact h.load hs _ _ _
  | fix operation confirmed =>
    obtain ⟨rules, loaded⟩ := s
    cases loaded with
    | none => exact ⟨hs, rfl⟩
    | some l =>
      refine ⟨fun l' hl' => ?_, rfl⟩
      injection hl' with hl'
      rw [← hl']
      exact h.applyFix (hs l rfl) operation confirmed
  | download encoding => exact ⟨hs, rfl⟩

theorem Lasting.runAll (h : Lasting s.rules P) (hs : s.Each P) (commands : List Command) :
    (s.runAll menu commands).Each P := by
  induction commands generalizing s with
  | nil => exact hs
  | cons command commands ih =>
    obtain ⟨hstep, hrules⟩ := h.run hs command
    exact ih (hrules ▸ h) hstep

theorem lasting_timed {rules : Rules} (hr : rules.Moderate) (hmin : 0 ≤ rules.minDuration) :
    Lasting rules Entry.Timed where
  read h := Entry.timed_of_parse h
  checked _ _ he := { he with }
  retimed _ _ he hnext := he.fixedStop hr hmin hnext
  edited _ _ he _ := { he with }

/-- Wherever a run has come, no subtitle has a time before the start, and the times that are shown
and written of it are read as its own. -/
theorem runAll_parse_times (menu : EncodingMenu) {rules : Rules} (hr : rules.Moderate)
    (hmin : 0 ≤ rules.minDuration) (commands : List Command) {l : Loaded}
    (hl : (runAll menu ⟨rules, none⟩ commands).loaded = some l) :
    ∀ e ∈ l.document.subtitles, 0 ≤ e.start ∧ 0 ≤ e.stop ∧
      (Timestamp.parse e.startText).map Int.ofNat = .ok e.start ∧
      (Timestamp.parse e.stopText).map Int.ofNat = .ok e.stop := by
  have hnew : Each ⟨rules, none⟩ Entry.Timed := fun l hl => by cases hl
  have heach : (runAll menu ⟨rules, none⟩ commands).Each Entry.Timed :=
    (lasting_timed hr hmin).runAll hnew commands
  intro e he
  have ht : e.Timed := heach l hl e (Document.mem_subtitles.1 he).1
  have hstart := ht.start_lt
  refine ⟨ht.start_nonneg, ht.stop_nonneg, ?_, ?_⟩
  · exact Entry.parse_format_of_lt ht.start_nonneg (by omega)
  · exact Entry.parse_format_of_lt ht.stop_nonneg ht.stop_lt

/-- The fix cuts the first subtitle to long before the start of the file, so that it ends where it
starts; the second ends later than two digits of hours tell, and the reload fails. -/
theorem runAll_parse_times_cut :
    let rules : Rules := { minDuration := 0, overlapGap := 10 ^ 12 }
    let menu : EncodingMenu := ⟨["utf-8".toList], "utf-8".toList⟩
    let text := "1\n00:00:00,000 --> 00:00:05,000\nOne\n\n" ++
      "2\n00:00:00,010 --> 99:99:99,999\nTwo"
    let commands : List Command := [
      .loadText text.toList none, .fix "resolve_common".toList false, .reload (some ['x'])]
    Rules.Moderate rules ∧ 0 ≤ rules.minDuration ∧
      ∃ l, (runAll menu ⟨rules, none⟩ commands).loaded = some l ∧
        (l.document.subtitles.map fun e => (e.stop, e.stopText)) =
          [(0, "00:00:00,000".toList), (362439999, "100:40:39,999".toList)] ∧
        ∀ e ∈ l.document.subtitles, 0 ≤ e.start ∧ 0 ≤ e.stop ∧
          (Timestamp.parse e.startText).map Int.ofNat = .ok e.start ∧
          (Timestamp.parse e.stopText).map Int.ofNat = .ok e.stop := by
  intro rules menu text commands
  have hr : rules.Moderate := by constructor <;> decide
  have hmin : 0 ≤ rules.minDuration := by decide
  have hrun : ((runAll menu ⟨rules, none⟩ commands).loaded.map fun l =>
      l.document.subtitles.map fun e => (e.stop, e.stopText)) =
        some [(0, "00:00:00,000".toList), (362439999, "100:40:39,999".toList)] := by decide +kernel
  obtain ⟨l, hl, hstops⟩ := Option.map_eq_some_iff.1 hrun
  exact ⟨hr, hmin, l, hl, hstops, runAll_parse_times menu hr hmin commands hl⟩

end Session

end CueCheck
