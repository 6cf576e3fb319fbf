import CueCheck.Issue
import CueCheck.Timestamp

/-!
The entries of a subtitle document: subtitles, and malformed blocks kept as they were.
-/

namespace CueCheck

/-- One block of a subtitle document. Times are in milliseconds. A malformed block has no times
and no text of its own, and carries the issue that says what is wrong with it. -/
structure Entry where
  index : Int
  start : Int
  stop : Int
  text : Text
  raw : Text := []
  issues : List Issue := []
  malformed : Bool := false
deriving DecidableEq, Repr

namespace Entry

/-- The entry for a block that cannot be read. -/
def ofMalformed (index : Int) (raw : Text) (message : String) : Entry :=
  ⟨index, 0, 0, [], raw, [⟨.syntactic, message⟩], true⟩

/-- How long a subtitle is shown; negative if it ends before it starts. -/
def duration (e : Entry) : Int := e.stop - e.start

def startText (e : Entry) : Text := Timestamp.format e.start

def stopText (e : Entry) : Text := Timestamp.format e.stop

/-- The lines that a subtitle shows. -/
def textLines (e : Entry) : List Text := e.text.lines

def hasIssue (e : Entry) (kind : IssueKind) : Bool := e.issues.any fun issue => issue.kind = kind

/-- The entry as one line for a reader. -/
def describe (e : Entry) : String :=
  if e.malformed then
    s!"SubtitleEntry(index={e.index}, error=" ++ String.ofList e.raw.quoted ++ ")"
  else
    s!"SubtitleEntry(index={e.index}, time=" ++ String.ofList e.startText ++ " --> " ++
      String.ofList e.stopText ++ ")"

/-- The issues that show in a subtitle by itself, whatever the rules. -/
def structuralIssues (e : Entry) : List Issue :=
  (if e.stop ≤ e.start then [⟨.syntactic, "End time is before start time"⟩] else []) ++
    if e.text.isEmpty then [⟨.formatting, "Subtitle has no text"⟩] else []

end Entry

end CueCheck
