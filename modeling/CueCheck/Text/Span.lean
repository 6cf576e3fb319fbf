import CueCheck.Text.Blank

/-!
Spans: stretches of one line from an opening character to the next closing one, and their removal.
-/

namespace CueCheck.Text

/-- What follows the first closing character of the line that a text starts with. -/
def afterClosing? (closing : Char) : Text → Option Text
  | [] => none
  | c :: rest =>
    if c = closing then some rest else if c = '\n' then none else afterClosing? closing rest

theorem length_afterClosing? {closing : Char} {t rest : Text}
    (h : afterClosing? closing t = some rest) : rest.length < t.length := by
  induction t with
  | nil => simp [afterClosing?] at h
  | cons c t ih =>
    simp only [afterClosing?] at h
    split at h
    · simp only [Option.some.injEq] at h
      simp [h]
    · split at h
      · simp at h
      · have := ih h
        simp only [List.length_cons]
        omega

/-- Removes, from left to right, each span from an opening character through the first closing
character after it on its line. -/
def removeSpans (opening closing : Char) : Text → Text
  | [] => []
  | c :: rest =>
    if c = opening then
      match _ : afterClosing? closing rest with
      | some later => removeSpans opening closing later
      | none => c :: removeSpans opening closing rest
    else c :: removeSpans opening closing rest
termination_by t => t.length
decreasing_by
  · have := length_afterClosing? ‹_›
    simp only [List.length_cons]
    omega
  · simp
  · simp

end CueCheck.Text
