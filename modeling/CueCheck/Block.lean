import CueCheck.Entry

/-!
Blocks: cutting a text at its blank lines, and reading one block as a subtitle.
-/

namespace CueCheck.Block

/-- What follows the last newline of the blanks that open a text, if they hold a newline. -/
def afterBlankLines? : Text → Option Text
  | [] => none
  | c :: rest =>
    if Text.isBlank c then
      (afterBlankLines? rest).or (if c = '\n' then some rest else none)
    else none

theorem length_afterBlankLines? {t rest : Text} (h : afterBlankLines? t = some rest) :
    rest.length < t.length := by
  induction t with
  | nil => simp [afterBlankLines?] at h
  | cons c t ih =>
    simp only [afterBlankLines?] at h
    split at h
    · cases ht : afterBlankLines? t with
      | some r =>
        simp only [ht, Option.some_or, Option.some.injEq] at h
        have := ih (by rw [ht, h])
        simp only [List.length_cons]
        omega
      | none =>
        simp only [ht, Option.none_or] at h
        split at h
        · simp only [Option.some.injEq] at h
          simp [h]
        · simp at h
    · simp at h

/-- Cuts a text at each newline that blanks up to another newline follow; the cut takes all of
these blanks but those after the last newline. -/
def cut : Text → List Text
  | [] => [[]]
  | c :: rest =>
    if c = '\n' then
      match _ : afterBlankLines? rest with
      | some later => [] :: cut later
      | none => Text.consLine c (cut rest)
    else Text.consLine c (cut rest)
termination_by t => t.length
decreasing_by
  · have := length_afterBlankLines? ‹_›
    simp only [List.length_cons]
    omega
  · simp
  · simp

/-- The blocks of a text, which blank lines separate; carriage returns do not count. -/
def split (content : Text) : List Text :=
  let content := content.trim.without '\r'
  if content.isEmpty then [] else cut content

/-- What keeps a block from being read as a subtitle. -/
inductive Fault where
  | tooFewLines
  | timestampMissing
  | invalidTimestamp
deriving DecidableEq, Repr

def Fault.message : Fault → String
  | tooFewLines => "Block has too few lines"
  | timestampMissing => "Timestamp missing"
  | invalidTimestamp => "Invalid timestamp format"

/-- The arrow between the two times of a subtitle. -/
def arrow : Text := ['-', '-', '>']

/-- Whether a line holds an arrow. -/
def hasArrow (line : Text) : Bool := (Text.search (Text.after? arrow) line).isSome

/-- Two timestamps with an arrow between them at the front of a text. -/
def timesHere? (t : Text) : Option (Clock × Clock) := do
  let (start, t) ← Timestamp.narrow? t
  let t ← Text.after? arrow (Text.trimStart t)
  let (stop, _) ← Timestamp.narrow? (Text.trimStart t)
  return (start, stop)

/-- The first pair of timestamps in a line. -/
def times? (line : Text) : Option (Clock × Clock) := Text.search timesHere? line

/-- The digits that a line starts with, after blanks and a plus sign. -/
def indexDigits (line : Text) : Text :=
  let line := Text.trimStart line
  ((Text.after? ['+'] line).getD line).takeWhile Numeral.isDigit

/-- The positive number that a line starts with, and otherwise the position of the block. -/
def readIndex (line : Text) (position : Int) : Except Failure Int :=
  match indexDigits line with
  | [] => .ok position
  | digits => do
    let n ← Numeral.read digits
    return if 0 < n then n else position

/-- The subtitle in a block whose first line and time line are given, and whose later lines are
its text. -/
def subtitle (block first : Text) (position : Int) (times : Clock × Clock) (text : List Text) :
    Except Failure Entry := do
  let index ← readIndex first position
  let e : Entry :=
    { index, start := times.1.total, stop := times.2.total, text := Text.unlines text, raw := block }
  return { e with issues := e.structuralIssues }

/-- Reads a block as a subtitle, or as malformed. The time line is the first with an arrow; the
text is all after it. -/
def read (block : Text) (position : Int) : Except Failure Entry :=
  let fault (f : Fault) : Except Failure Entry := .ok (.ofMalformed position block f.message)
  match block.lines.filter (!Text.isBlankLine ·) with
  | first :: second :: rest =>
    match (first :: second :: rest).dropWhile (!hasArrow ·) with
    | [] => fault .timestampMissing
    | timeLine :: text =>
      match times? timeLine with
      | none => fault .invalidTimestamp
      | some times => subtitle block first position times text
  | _ => fault .tooFewLines

end CueCheck.Block
