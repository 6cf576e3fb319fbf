import CueCheck.Analysis
import CueCheck.Json.Value

/-!
Reports on documents, as the service gives them.
-/

namespace CueCheck.Service

def issueJson (issue : Issue) : Json :=
  .obj [
    ("kind", .ofString issue.kind.name),
    ("severity", .ofString issue.kind.severity),
    ("label", .ofString issue.kind.label),
    ("message", .ofString issue.message)]

/-- An entry in a report; a malformed block shows no times and no text. -/
def entryJson (e : Entry) : Json :=
  let shown (value : Json) : Json := if e.malformed then .null else value
  .obj [
    ("index", .int e.index),
    ("start_time", shown (.str e.startText)),
    ("end_time", shown (.str e.stopText)),
    ("start_time_ms", shown (.int e.start)),
    ("end_time_ms", shown (.int e.stop)),
    ("text", shown (.str e.text)),
    ("raw", .str e.raw),
    ("is_error", .bool e.malformed),
    ("issues", .arr (e.issues.map issueJson))]

def countsJson (counts : IssueCounts) : Json :=
  .obj (counts.table.map fun (name, n) => (name, .ofNat n))

/-- The report on an analyzed document. -/
def reportJson (d : Document) (counts : IssueCounts) : Json :=
  .obj [
    ("filename", .ofOption .str d.filename),
    ("entry_count", .ofNat d.entries.length),
    ("error_count", .ofNat d.malformed.length),
    ("counts", countsJson counts),
    ("has_issues", .bool counts.hasIssues),
    ("entries", .arr (d.entries.map entryJson))]

end CueCheck.Service
