import CueCheck.Log.Line
import CueCheck.Session

/-!
What the commands of a session write to the log.
-/

namespace CueCheck

/-- The line for a document that was read. -/
def Document.parsedLine (d : Document) : LogLine :=
  let blocks := d.entries.length
  let malformed := d.malformed.length
  if 0 < malformed then
    ⟨.info, "app.services.srt_parser", s!"Parsed {blocks} blocks ({malformed} malformed)"⟩
  else ⟨.debug, "app.services.srt_parser", s!"Parsed {blocks} blocks"⟩

/-- The line for an analysis. -/
def IssueCounts.analyzedLine (counts : IssueCounts) : LogLine :=
  ⟨.debug, "app.services.validator", "Analysis complete: " ++ counts.tableText⟩

/-- The line for a fix that changed a number of subtitles. -/
def Fix.line (changed : Nat) (fix : Fix) : LogLine :=
  let message := match fix with
    | .resolveTiming => s!"Resolved timing issues on {changed} entries"
    | .stripAnnotations => s!"Stripped bracketed annotations from {changed} entries"
    | .stripMarkup => s!"Stripped markup tags from {changed} entries"
  ⟨.info, "app.services.fixer", message⟩

/-- The line for data that is no text in an encoding. -/
def DecodeFault.line (fault : DecodeFault) (data : Bytes) (encoding : Text) : LogLine :=
  ⟨.warning, "app.services.encodings",
    s!"Failed to decode {data.length} bytes as {String.ofList encoding}: {fault.describe data}"⟩

/-- The line for a file that was loaded. -/
def Loaded.line (loaded : Loaded) (encoding : Text) : LogLine :=
  let name := Download.orElse (loaded.document.filename.getD []) "subtitles".toList
  let entries := loaded.document.entries.length
  let issues := loaded.counts.total
  ⟨.info, "app.services.session",
    s!"Loaded {String.ofList name} as {String.ofList encoding}: {entries} entries, {issues} issues"⟩

namespace Session

/-- The line of an analysis, if it succeeds. -/
def analysisLines (counts : Except Failure IssueCounts) : List LogLine :=
  (counts.toOption.map (·.analyzedLine)).toList

/-- The lines of reading and analyzing a text. -/
def openLines (rules : Rules) (text : Text) (filename : Option Text) : List LogLine :=
  match Document.parse text filename with
  | .error _ => []
  | .ok d => d.parsedLine :: analysisLines (d.analyze rules).2

/-- The lines of loading a file. -/
def loadLines (menu : EncodingMenu) (rules : Rules) (source : Source)
    (filename encoding : Option Text) : List LogLine :=
  match menu.resolve encoding, source.read with
  | .ok name, .ok raw =>
    match decodeData name raw with
    | .error _ => []
    | .ok (.error fault) => [fault.line raw name]
    | .ok (.ok text) =>
      let text := text.dropWhile (· == byteOrderMark)
      openLines rules text filename ++
        match openText rules text filename with
        | .ok loaded => [loaded.line name]
        | .error _ => []
  | _, _ => []

/-- The lines of a fix. -/
def fixLines (s : Session) (operation : Text) (confirmed : Bool) : List LogLine :=
  match s.current, Fix.permitted operation confirmed with
  | .ok loaded, .ok fix =>
    let (fixed, changed) := fix.run s.rules loaded.document
    fix.line changed :: analysisLines (fixed.analyze s.rules).2
  | _, _ => []

/-- The lines that a command writes. -/
def lines (menu : EncodingMenu) (s : Session) : Command → List LogLine
  | .load source filename encoding => loadLines menu s.rules source filename encoding
  | .loadText text filename => openLines s.rules text filename
  | .reload encoding =>
    match s.current with
    | .ok loaded =>
      loadLines menu s.rules (.bytes loaded.raw) loaded.document.filename encoding
    | .error _ => []
  | .fix operation confirmed => s.fixLines operation confirmed
  | .download _ => []

end Session

end CueCheck
