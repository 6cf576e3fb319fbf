import CueCheck.Document
import CueCheck.Rules
import CueCheck.Tenths

/-!
Checking subtitles against the rules, and counting what is found.
-/

namespace CueCheck

namespace Entry

/-- Whether a subtitle is still shown when the next one starts; malformed blocks overlap
nothing. -/
def overlaps (e : Entry) : Option Entry → Bool
  | none => false
  | some next => !e.malformed && !next.malformed && decide (next.start < e.stop)

/-- The duration in seconds. -/
def seconds (e : Entry) : Except Failure Binary64 :=
  match Binary64.ofQuotient (e.duration < 0) e.duration.natAbs 1000 with
  | .infinite _ => .error .durationTooLarge
  | x => .ok x

/-- Characters per second; zero for a subtitle without a positive duration. -/
def readingSpeed (e : Entry) : Except Failure Binary64 :=
  if e.duration ≤ 0 then .ok .zero
  else do return Binary64.divideNat e.text.length (← e.seconds)

def overlapIssues (e : Entry) (next? : Option Entry) : List Issue :=
  if e.overlaps next? then [⟨.overlap, "Overlaps with next subtitle"⟩] else []

def shortIssues (rules : Rules) (e : Entry) : List Issue :=
  if e.duration < rules.minDuration then
    [⟨.shortDuration, s!"Short duration ({e.duration}ms)"⟩]
  else []

def longIssues (rules : Rules) (e : Entry) : Except Failure (List Issue) :=
  if rules.maxDuration < e.duration then do
    let shown ← oneDecimal (← e.seconds)
    return [⟨.longDuration, s!"Long duration ({shown}s)"⟩]
  else .ok []

def lineLengthIssues (rules : Rules) (e : Entry) : List Issue :=
  if e.textLines.any fun line => rules.maxLineLength < line.length then
    [⟨.lineLength, s!"High characters per line (>{rules.maxLineLength})"⟩]
  else []

def speedIssues (rules : Rules) (e : Entry) : Except Failure (List Issue) := do
  let speed ← e.readingSpeed
  if rules.maxSpeed.lt speed then
    let shown ← oneDecimal speed
    return [⟨.readingSpeed, s!"High reading speed ({shown} CPS)"⟩]
  else return []

/-- A number of lines in words below ten, and in digits from there on. -/
def spelled (n : Int) : String :=
  match n with
  | 0 => "zero"
  | 1 => "one"
  | 2 => "two"
  | 3 => "three"
  | 4 => "four"
  | 5 => "five"
  | 6 => "six"
  | 7 => "seven"
  | 8 => "eight"
  | 9 => "nine"
  | n => s!"{n}"

def lineCountIssues (rules : Rules) (e : Entry) : List Issue :=
  if rules.maxLines < e.textLines.length then
    [⟨.formatting, s!"More than {spelled rules.maxLines} lines of text"⟩]
  else []

/-- The issues of a subtitle that another one may follow, in the order of reports. -/
def check (rules : Rules) (e : Entry) (next? : Option Entry) : Except Failure (List Issue) := do
  let long ← e.longIssues rules
  let fast ← e.speedIssues rules
  return e.structuralIssues ++ e.overlapIssues next? ++ e.shortIssues rules ++ long ++
    e.lineLengthIssues rules ++ fast ++ e.lineCountIssues rules

end Entry

namespace Document

/-- The entry that follows a position, if there is one. -/
def entryAfter? (d : Document) (position : Int) : Except Failure (Option Entry) :=
  if (d.entries.length : Int) ≤ position + 1 then .ok none
  else do return some (← d.entryAt (position + 1))

/-- Whether the subtitle at a position overlaps the following one. -/
def overlapsAt (d : Document) (position : Int) : Except Failure Bool := do
  match ← d.entryAfter? position with
  | none => return false
  | some next => return (← d.entryAt position).overlaps (some next)

/-- The issues of the entry at a position. -/
def checkAt (rules : Rules) (d : Document) (position : Int) : Except Failure (List Issue) := do
  let e ← d.entryAt position
  e.check rules (← d.entryAfter? position)

end Document

/-- Renews the issues of subtitles in order and counts them; malformed blocks keep theirs and count
once each. A failure leaves its entry and the later ones as they were. -/
def checkEntries (rules : Rules) : List Entry → List Entry × Except Failure IssueCounts
  | [] => ([], .ok {})
  | e :: rest =>
    if e.malformed then
      let (rest, counts) := checkEntries rules rest
      (e :: rest, counts.map (·.add .syntactic))
    else
      match e.check rules rest.head? with
      | .error failure => (e :: rest, .error failure)
      | .ok issues =>
        let (rest, counts) := checkEntries rules rest
        ({ e with issues } :: rest, counts.map (·.addAll (issues.map (·.kind))))

/-- Renews the issues of a document and counts them. -/
def Document.analyze (rules : Rules) (d : Document) : Document × Except Failure IssueCounts :=
  let (entries, counts) := checkEntries rules d.entries
  ({ d with entries }, counts)

end CueCheck
