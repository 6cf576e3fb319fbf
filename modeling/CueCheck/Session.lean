import CueCheck.Charset
import CueCheck.Download
import CueCheck.Fix

/-!
Sessions: loading, fixing and exporting one document at a time.
-/

namespace CueCheck

/-- A document with its counts, and the bytes that it was read from. -/
structure Loaded where
  document : Document
  counts : IssueCounts
  raw : Bytes
deriving DecidableEq, Repr

/-- A session; its rules stay the same while documents come and go. -/
structure Session where
  rules : Rules
  loaded : Option Loaded := none
deriving DecidableEq, Repr

/-- What a session can be asked to do. -/
inductive Command where
  | load (source : Source) (filename encoding : Option Text)
  | loadText (text : Text) (filename : Option Text)
  | reload (encoding : Option Text)
  | fix (operation : Text) (confirmed : Bool)
  | download (encoding : Option Text)
deriving DecidableEq, Repr

/-- What a session answers to a command that succeeds. -/
inductive Answer where
  | counted (counts : IssueCounts)
  | fixed (report : FixReport)
  | downloaded (filename : Text) (data : Bytes)
deriving DecidableEq, Repr

namespace Session

def current (s : Session) : Except Failure Loaded :=
  match s.loaded with
  | some loaded => .ok loaded
  | none => .error .nothingLoaded

/-- Reads and analyzes a text as a document; its bytes are kept in UTF-8. -/
def openText (rules : Rules) (text : Text) (filename : Option Text) : Except Failure Loaded := do
  let (document, counts) := (← Document.parse text filename).analyze rules
  return ⟨document, ← counts, Utf8.encode text⟩

/-- Loads a text in place of the current document; if reading it fails, the session stays. -/
def loadText (s : Session) (text : Text) (filename : Option Text) :
    Session × Except Failure IssueCounts :=
  match openText s.rules text filename with
  | .ok loaded => ({ s with loaded := some loaded }, .ok loaded.counts)
  | .error failure => (s, .error failure)

/-- The bytes of a file, and their text in an encoding of the menu. -/
def readFile (menu : EncodingMenu) (source : Source) (encoding : Option Text) :
    Except Failure (Bytes × Text) := do
  let encoding ← menu.resolve encoding
  let raw ← source.read
  return (raw, ← readText encoding raw)

/-- Keeps other bytes for the current document. -/
def keepRaw (s : Session) (raw : Bytes) : Session :=
  { s with loaded := s.loaded.map fun loaded => { loaded with raw } }

/-- Loads the text of a file, and keeps the bytes of the file in place of those of the text. -/
def load (menu : EncodingMenu) (s : Session) (source : Source) (filename encoding : Option Text) :
    Session × Except Failure IssueCounts :=
  match readFile menu source encoding with
  | .error failure => (s, .error failure)
  | .ok (raw, text) =>
    match s.loadText text filename with
    | (s, .ok counts) => (s.keepRaw raw, .ok counts)
    | (s, .error failure) => (s, .error failure)

/-- Loads the bytes of the current document again in another encoding. -/
def reload (menu : EncodingMenu) (s : Session) (encoding : Option Text) :
    Session × Except Failure IssueCounts :=
  match s.current with
  | .error failure => (s, .error failure)
  | .ok loaded => s.load menu (.bytes loaded.raw) loaded.document.filename encoding

/-- Fixes the current document and renews its counts. -/
def fix (s : Session) (operation : Text) (confirmed : Bool) :
    Session × Except Failure FixReport :=
  match s.current with
  | .error failure => (s, .error failure)
  | .ok loaded =>
    let (document, report) := loaded.document.applyFix s.rules operation confirmed
    let counts := match report with
      | .ok report => report.counts
      | .error _ => loaded.counts
    ({ s with loaded := some { loaded with document, counts } }, report)

/-- The current document as a file for download, in the encoding that a name means in a registry:
its name, and its bytes as `write` gives them for a text in a named encoding. -/
def exportedIn {κ : Type} [DecidableEq κ] (registry : Registry κ)
    (write : Text → Text → Except Failure Bytes) (menu : EncodingMenu) (s : Session)
    (encoding : Option Text) : Except Failure (Text × Bytes) := do
  let loaded ← s.current
  let encoding ← menu.resolveIn registry encoding
  let data ← write encoding loaded.document.render
  return (Download.fixedName loaded.document.filename, data)

/-- The current document as a file for download: its name and its bytes. -/
def exported (menu : EncodingMenu) (s : Session) (encoding : Option Text) :
    Except Failure (Text × Bytes) :=
  s.exportedIn Charset.registry encodeText menu encoding

/-- Runs a command: the session after it, and its answer. -/
def run (menu : EncodingMenu) (s : Session) : Command → Session × Except Failure Answer
  | .load source filename encoding =>
    (s.load menu source filename encoding).map id (·.map .counted)
  | .loadText text filename => (s.loadText text filename).map id (·.map .counted)
  | .reload encoding => (s.reload menu encoding).map id (·.map .counted)
  | .fix operation confirmed => (s.fix operation confirmed).map id (·.map .fixed)
  | .download encoding =>
    (s, (s.exported menu encoding).map fun (filename, data) => .downloaded filename data)

/-- The session after a list of commands. -/
def runAll (menu : EncodingMenu) (s : Session) (commands : List Command) : Session :=
  commands.foldl (fun s command => (s.run menu command).1) s

end Session

end CueCheck
