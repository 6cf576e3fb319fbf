import CueCheck.Service.Report
import CueCheck.Service.Submission
import CueCheck.Session
import CueCheck.Settings

/-!
What the service does at each of its addresses.
-/

namespace CueCheck.Service

/-- The services on offer. -/
inductive Endpoint where
  | health
  | analyze
  | upload
  | fix
  | download
  | documentation
deriving DecidableEq, Repr

def stepJson : Step → Json
  | .field name => .ofString name
  | .item place => .ofNat place

def problemJson (p : Problem) : Json :=
  .obj [
    ("type", .ofString p.kind.code),
    ("loc", .arr (p.location.map stepJson)),
    ("msg", .ofString p.kind.message)]

/-- Refuses a request for what is wrong with its body. -/
def unprocessable (problems : List Problem) : Response :=
  .detail 422 (.arr (problems.map problemJson))

/-- Refuses a request with the wording of a failure. -/
def refused (status : Nat) (failure : Failure) : Response :=
  .detail status (.ofString failure.message)

/-- The addresses of the service, for people. -/
def directory : Json :=
  .obj [
    ("subtitles", .arr <| List.map Json.ofString [
      "POST /api/v1/subtitles/analyze - Analyze SRT content",
      "POST /api/v1/subtitles/upload - Upload and analyze an SRT file",
      "POST /api/v1/subtitles/fix - Apply batch fixes to SRT content",
      "POST /api/v1/subtitles/export - Download fixed SRT in a chosen encoding"]),
    ("health", .arr [.ofString "GET /api/v1/health - Service health check"])]

def health (settings : Settings) : Response :=
  .json 200 <| .obj [
    ("service", .str settings.appName),
    ("status", .ofString "running"),
    ("version", .str settings.appVersion),
    ("authentication",
      .ofString (if settings.requiredKey.isSome then "enabled" else "disabled")),
    ("encodings", .arr (settings.supportedEncodings.map .str)),
    ("endpoints", directory)]

/-- The report on the document that a session has loaded. -/
def report (s : Session) : Except Failure Json := do
  let loaded ← s.current
  return reportJson loaded.document loaded.counts

/-- A session in which a text has been loaded. -/
def opened (settings : Settings) (text : Text) (filename : Option Text) :
    Except Failure Session := do
  let (s, counts) := Session.loadText ⟨settings.rules, none⟩ text filename
  let _ ← counts
  return s

def analyze (settings : Settings) (content : Text) : Except Failure Response := do
  return .json 200 (← report (← opened settings content none))

/-- Whether a failure is the client's own, for a wrong encoding or a wrong file. -/
def isClientFailure : Failure → Bool
  | .unsupportedEncoding .. | .unreadable _ | .undecodable .. | .unencodable .. => true
  | _ => false

/-- Answers 400 to a failure of the client's own; any other failure stays one. -/
def answerClientFailure (result : Except Failure Response) : Except Failure Response :=
  match result with
  | .ok response => .ok response
  | .error failure => if isClientFailure failure then .ok (refused 400 failure) else .error failure

/-- The wording for a file that is too large. -/
def tooLarge (size : Nat) (limit : Int) : Response :=
  .detail 413 <| .str <|
    "File size (".toList ++ Numeral.grouped size ++ " bytes) exceeds maximum allowed (".toList ++
      Numeral.groupedInt limit ++ " bytes)".toList

def upload (settings : Settings) (u : Upload) : Except Failure Response :=
  if settings.maxFileSize < u.data.length then
    .ok (tooLarge u.data.length settings.maxFileSize)
  else answerClientFailure do
    let (s, counts) := Session.load settings.menu ⟨settings.rules, none⟩ (.bytes u.data)
      (some u.filename) u.encoding
    let _ ← counts
    return .json 200 (← report s)

/-- The refusal of a submission that removes text without confirmation. -/
def unconfirmed? (submission : Submission) : Option Response :=
  if submission.confirmed then none
  else (submission.fixes.find? Fix.destructive).map fun fix =>
    refused 409 (.confirmationRequired fix.name)

/-- Adds a number of changes to those of the same fix, or after those of the other fixes. -/
def addChange (fix : Fix) (changed : Nat) : List (Fix × Nat) → List (Fix × Nat)
  | [] => [(fix, changed)]
  | (other, n) :: rest =>
    if other = fix then (other, n + changed) :: rest
    else (other, n) :: addChange fix changed rest

/-- Runs fixes one after another in a session, and counts the changes of each. -/
def runFixes (s : Session) (changes : List (Fix × Nat)) :
    List Fix → Except Failure (Session × List (Fix × Nat))
  | [] => .ok (s, changes)
  | fix :: rest =>
    match s.fix fix.name.toList true with
    | (_, .error failure) => .error failure
    | (s, .ok report) => runFixes s (addChange fix report.changed changes) rest

/-- A session in which a submission has been loaded and fixed, and the changes made. -/
def fixed (settings : Settings) (submission : Submission) :
    Except Failure (Session × List (Fix × Nat)) := do
  runFixes (← opened settings submission.content submission.filename) [] submission.fixes

/-- Fixes a submission and reports on the outcome. -/
def fix (settings : Settings) (submission : Submission) : Except Failure Response :=
  match unconfirmed? submission with
  | some response => .ok response
  | none => do
    let (s, changes) ← fixed settings submission
    let loaded ← s.current
    return .json 200 <| .obj [
      ("fixed_srt", .str loaded.document.render),
      ("changes", .obj (changes.map fun (fix, n) => (fix.name, .ofNat n))),
      ("report", ← report s)]

/-- The fixed subtitles of a session as a file, in the encoding that a name means in a registry. -/
def fileResponseIn {κ : Type} [DecidableEq κ] (registry : Registry κ)
    (write : Text → Text → Except Failure Bytes) (settings : Settings) (s : Session)
    (encoding : Option Text) : Except Failure Response := do
  let encoding ← settings.menu.resolveIn registry encoding
  let (filename, data) ← s.exportedIn registry write settings.menu (some encoding)
  return {
    status := 200
    contentType := some ("text/plain; charset=".toList ++ encoding)
    content := .bytes data
    disposition := some (Download.contentDisposition filename) }

/-- The fixed subtitles of a session as a file in an encoding. -/
def fileResponse (settings : Settings) (s : Session) (encoding : Option Text) :
    Except Failure Response :=
  fileResponseIn Charset.registry encodeText settings s encoding

/-- Fixes a submission and offers it for download. -/
def download (settings : Settings) (submission : Submission) : Except Failure Response :=
  match unconfirmed? submission with
  | some response => .ok response
  | none => do
    let (s, _) ← fixed settings submission
    answerClientFailure (fileResponse settings s submission.encoding)

/-- Answers a request whose body may be wrong. -/
def checked {α : Type} (read : Checked α) (answer : α → Except Failure Response) :
    Except Failure Response :=
  match read with
  | .ok value => answer value
  | .error problems => .ok (unprocessable problems)

/-- The response of an endpoint; a failure is one that the service has no answer to. -/
def Endpoint.respond (settings : Settings) (body : Body) : Endpoint → Except Failure Response
  | health => .ok (Service.health settings)
  | analyze => checked (readAnalysis body) (Service.analyze settings)
  | upload => checked (readUpload body) (Service.upload settings)
  | fix => checked (readFixing body) (Service.fix settings)
  | download => checked (readDownload body) (Service.download settings)
  | documentation =>
    .ok { status := 200, contentType := some "text/html; charset=utf-8".toList, content := .bytes [] }

end CueCheck.Service
