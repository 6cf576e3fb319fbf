import CueCheck.Redaction
import CueCheck.Download
import CueCheck.Settings

/-!
Where the log goes: to the console, and to a file of limited size.
-/

namespace CueCheck

/-- A destination of the log, with or without redaction. -/
inductive LogHandler where
  | console (redacting : Bool)
  | file (redacting : Bool) (path : Text) (maxBytes backups : Int)
deriving DecidableEq, Repr

namespace LogHandler

/-- The parts of a path with steps upwards carried out. -/
def resolvedParts (path : Text) : List Text :=
  ((Download.pathParts path).foldl (fun (done : List Text) part =>
    if part.isEmpty || part = ['.'] then done
    else if part = ['.', '.'] then done.drop 1
    else part :: done) []).reverse

/-- A path below the working directory, in its shortest form. -/
def resolvedPath (path : Text) : Text := List.intercalate ['/'] (resolvedParts path)

/-- The destinations that the settings describe. -/
def ofSettings (s : Settings) : List LogHandler :=
  [.console s.enableLogRedaction,
    .file s.enableLogRedaction (resolvedPath (s.logDir ++ '/' :: s.logFile)) s.logMaxBytes
      s.logBackupCount]

def redacting : LogHandler → Bool
  | console r | file r .. => r

/-- The text that a destination writes for messages, one to a line. -/
def written (handler : LogHandler) (messages : List Text) : Text :=
  messages.flatMap fun message =>
    (if handler.redacting then Redaction.redact message else message) ++ ['\n']

end LogHandler

end CueCheck
