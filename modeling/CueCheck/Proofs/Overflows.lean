import CueCheck.Proofs.Passes
import CueCheck.Proofs.TolerantReading
import CueCheck.Session

/-!
How loading a text can fail: only by a numeral, a duration or a figure that is too large.
-/

namespace CueCheck

/-- The failures of a number that is too large. -/
inductive Failure.IsOverflow : Failure → Prop where
  | numeral (digits : Nat) : IsOverflow (numeralTooLong digits)
  | duration : IsOverflow durationTooLarge
  | tenths : IsOverflow tenthsTooLong

variable {failure : Failure} {rules : Rules}

theorem Block.isOverflow_of_read {block : Text} {position : Int}
    (h : read block position = .error failure) : failure.IsOverflow := by
  by_cases hlong : IsOverlong block
  · rw [read_of_isOverlong hlong] at h
    injection h with h
    rw [← h]
    exact .numeral _
  · obtain ⟨e, hread⟩ := exists_read_of_not_isOverlong hlong position
    rw [hread] at h
    cases h

theorem Document.isOverflow_of_readBlocks {position : Nat} {blocks : List Text}
    (h : readBlocks position blocks = .error failure) : failure.IsOverflow := by
  induction blocks generalizing position with
  | nil => cases h
  | cons block blocks ih =>
    rw [readBlocks] at h
    rcases eq_error_of_bind h with h | ⟨e, -, h⟩
    · exact Block.isOverflow_of_read h
    · rcases eq_error_of_bind h with h | ⟨rest, -, h⟩
      · exact ih h
      · cases h

namespace Entry

variable {e : Entry}

theorem isOverflow_of_seconds (h : e.seconds = .error failure) : failure.IsOverflow := by
  rw [seconds] at h
  split at h
  · injection h with h
    rw [← h]
    exact .duration
  · cases h

theorem isOverflow_of_oneDecimal {x : Binary64} (h : oneDecimal x = .error failure) :
    failure.IsOverflow := by
  cases x with
  | finite negative mantissa exponent =>
    rw [oneDecimal, Tenths.text?] at h
    split at h
    · cases h
    · injection h with h
      rw [← h]
      exact .tenths
  | infinite negative =>
    injection h with h
    rw [← h]
    exact .tenths
  | nan => cases h

theorem isOverflow_of_longIssues (h : e.longIssues rules = .error failure) :
    failure.IsOverflow := by
  rw [longIssues] at h
  split at h
  · rcases eq_error_of_bind h with h | ⟨x, -, h⟩
    · exact isOverflow_of_seconds h
    · rcases eq_error_of_bind h with h | ⟨shown, -, h⟩
      · exact isOverflow_of_oneDecimal h
      · cases h
  · cases h

theorem isOverflow_of_speedIssues (h : e.speedIssues rules = .error failure) :
    failure.IsOverflow := by
  rw [speedIssues] at h
  rcases eq_error_of_bind h with h | ⟨speed, -, h⟩
  · rw [readingSpeed] at h
    split at h
    · cases h
    · rcases eq_error_of_bind h with h | ⟨x, -, h⟩
      · exact isOverflow_of_seconds h
      · cases h
  · split at h
    · rcases eq_error_of_bind h with h | ⟨shown, -, h⟩
      · exact isOverflow_of_oneDecimal h
      · cases h
    · cases h

theorem isOverflow_of_check {next? : Option Entry} (h : e.check rules next? = .error failure) :
    failure.IsOverflow := by
  rw [check] at h
  rcases eq_error_of_bind h with h | ⟨long, -, h⟩
  · exact isOverflow_of_longIssues h
  · rcases eq_error_of_bind h with h | ⟨fast, -, h⟩
    · exact isOverflow_of_speedIssues h
    · cases h

end Entry

theorem isOverflow_of_checkEntries {es : List Entry}
    (h : (checkEntries rules es).2 = .error failure) : failure.IsOverflow := by
  induction es with
  | nil => cases h
  | cons e es ih =>
    rw [checkEntries] at h
    generalize checkEntries rules es = tail at h ih
    obtain ⟨rest, result⟩ := tail
    split at h
    · cases result with
      | error other => exact ih h
      | ok counts => cases h
    · split at h
      · next other hcheck =>
        injection h with h
        rw [← h]
        exact Entry.isOverflow_of_check hcheck
      · cases result with
        | error other => exact ih h
        | ok counts => cases h

/-- A text that cannot be loaded holds or gives a number that is too large. -/
theorem Session.isOverflow_of_openText {text : Text} {filename : Option Text}
    (h : openText rules text filename = .error failure) : failure.IsOverflow := by
  rw [openText] at h
  rcases eq_error_of_bind h with h | ⟨d, -, h⟩
  · rw [Document.parse] at h
    rcases eq_error_of_bind h with h | ⟨entries, -, h⟩
    · exact Document.isOverflow_of_readBlocks h
    · cases h
  · rcases eq_error_of_bind h with h | ⟨counts, -, h⟩
    · exact isOverflow_of_checkEntries h
    · cases h

end CueCheck
