import CueCheck.Analysis
import CueCheck.Text.Span

/-!
Batch fixes: adjusting times, and removing annotations or markup from texts. A fix keeps the number
and order of entries and leaves malformed blocks as they are.
-/

namespace CueCheck

/-- The fixes. -/
inductive Fix where
  | resolveTiming
  | stripAnnotations
  | stripMarkup
deriving DecidableEq, Repr

namespace Fix

def all : List Fix := [.resolveTiming, .stripAnnotations, .stripMarkup]

/-- The word for a fix in requests and reports. -/
def name : Fix → String
  | resolveTiming => "resolve_common"
  | stripAnnotations => "strip_annotations"
  | stripMarkup => "strip_markup"

/-- The fix that a word names. -/
def ofName? (word : Text) : Option Fix := all.find? fun fix => fix.name.toList == word

/-- The fix that a word names, or the failure that it names none. -/
def ofName (word : Text) : Except Failure Fix :=
  match ofName? word with
  | some fix => .ok fix
  | none => .error (.unknownOperation word)

/-- Whether a fix removes text, which cannot be undone. -/
def destructive : Fix → Bool
  | resolveTiming => false
  | stripAnnotations | stripMarkup => true

end Fix

namespace Entry

/-- The end of a subtitle once it leaves the gap before the next one. -/
def clearedStop (rules : Rules) (e : Entry) : Option Entry → Int
  | none => e.stop
  | some next => if e.overlaps (some next) then next.start - rules.overlapGap else e.stop

/-- The end of a subtitle after the timing fix: cleared of an overlap, and then put off until the
shortest duration has passed. -/
def fixedStop (rules : Rules) (e : Entry) (next? : Option Entry) : Int :=
  let stop := e.clearedStop rules next?
  if stop - e.start < rules.minDuration then e.start + rules.minDuration else stop

/-- The text without annotations in square or round brackets. -/
def withoutAnnotations (text : Text) : Text :=
  ((text.removeSpans '[' ']').removeSpans '(' ')').trim

/-- The text without markup in angle brackets. -/
def withoutMarkup (text : Text) : Text := (text.removeSpans '<' '>').trim

end Entry

/-- Fixes the times of subtitles in order, and counts those whose end changes. -/
def resolveTiming (rules : Rules) : List Entry → List Entry × Nat
  | [] => ([], 0)
  | e :: rest =>
    let (fixed, changed) := resolveTiming rules rest
    if e.malformed then (e :: fixed, changed)
    else
      let stop := e.fixedStop rules rest.head?
      ({ e with stop } :: fixed, if stop = e.stop then changed else changed + 1)

/-- Edits the text of each subtitle, and counts those whose text changes. -/
def editTexts (edit : Text → Text) : List Entry → List Entry × Nat
  | [] => ([], 0)
  | e :: rest =>
    let (fixed, changed) := editTexts edit rest
    if e.malformed then (e :: fixed, changed)
    else
      let text := edit e.text
      ({ e with text } :: fixed, if text = e.text then changed else changed + 1)

/-- What a fix does to a document, and the number of subtitles that it changes. -/
def Fix.run (rules : Rules) (d : Document) (fix : Fix) : Document × Nat :=
  let (entries, changed) :=
    match fix with
    | .resolveTiming => CueCheck.resolveTiming rules d.entries
    | .stripAnnotations => editTexts Entry.withoutAnnotations d.entries
    | .stripMarkup => editTexts Entry.withoutMarkup d.entries
  ({ d with entries }, changed)

/-- The result of a fix. -/
structure FixReport where
  fix : Fix
  changed : Nat
  counts : IssueCounts
deriving DecidableEq, Repr

/-- The fix that a word names, if it removes no text or is confirmed. -/
def Fix.permitted (word : Text) (confirmed : Bool) : Except Failure Fix := do
  let fix ← Fix.ofName word
  if fix.destructive && !confirmed then .error (.confirmationRequired fix.name) else .ok fix

/-- Runs a fix and analyzes the document again. -/
def Fix.apply (rules : Rules) (d : Document) (fix : Fix) : Document × Except Failure FixReport :=
  let (fixed, changed) := fix.run rules d
  let (analyzed, counts) := fixed.analyze rules
  (analyzed, counts.map fun counts => ⟨fix, changed, counts⟩)

/-- Runs the fix that a word names, if it is permitted. -/
def Document.applyFix (rules : Rules) (d : Document) (word : Text) (confirmed : Bool) :
    Document × Except Failure FixReport :=
  match Fix.permitted word confirmed with
  | .error failure => (d, .error failure)
  | .ok fix => fix.apply rules d

end CueCheck
