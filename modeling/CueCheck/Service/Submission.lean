import CueCheck.Fix
import CueCheck.Problem
import CueCheck.Service.Message

/-!
Submissions: subtitles, and what to do with them, in the body of a request.
-/

namespace CueCheck.Service

/-- A value, or all that is wrong with it. -/
abbrev Checked (α : Type) := Except (List Problem) α

namespace Checked

def problems {α : Type} : Checked α → List Problem
  | .ok _ => []
  | .error ps => ps

/-- Both values, or all that is wrong with either. -/
def both {α β : Type} (a : Checked α) (b : Checked β) : Checked (α × β) :=
  match a, b with
  | .ok a, .ok b => .ok (a, b)
  | a, b => .error (a.problems ++ b.problems)

end Checked

/-- A problem with a field of the body, or with an item inside it. -/
def bodyProblem (kind : ProblemKind) (path : List Step) : List Problem :=
  [⟨kind, .field "body" :: path⟩]

/-- The subtitles of a submission, which must not be the empty text. -/
def readContent (body : Json) : Checked Text :=
  let wrong (kind : ProblemKind) := .error (bodyProblem kind [.field "srt_content"])
  match body.field? "srt_content" with
  | none => wrong .missing
  | some (.str []) => wrong .emptyString
  | some (.str t) => .ok t
  | some _ => wrong .notString

/-- Reads the items of a list of fixes, the first of them at the given place. -/
def readFixItems (place : Nat) : List Json → Checked (List Fix)
  | [] => .ok []
  | item :: rest =>
    let fix : Checked Fix :=
      match item with
      | .str word =>
        match Fix.ofName? word with
        | some fix => .ok fix
        | none => unknown
      | _ => unknown
    (Checked.both fix (readFixItems (place + 1) rest)).map fun (fix, fixes) => fix :: fixes
where
  unknown {α : Type} : Checked α :=
    .error (bodyProblem (.notOption (Fix.all.map (·.name))) [.field "operations", .item place])

/-- The fixes of a submission, or the given ones if it names none. -/
def readFixes (fallback : List Fix) (body : Json) : Checked (List Fix) :=
  match body.field? "operations" with
  | none => .ok fallback
  | some (.arr items) => readFixItems 0 items
  | some _ => .error (bodyProblem .notList [.field "operations"])

/-- The integer that a number is, if it is one of sixty-four bits. -/
def integerValue? : Json → Option Int
  | .int i => if -(twoPow 63 : Int) ≤ i && i < twoPow 63 then some i else none
  | .decimal negative mantissa exponent =>
    match Binary64.ofDecimal negative mantissa exponent with
    | .finite negative m e =>
      let (num, den) := Binary64.scaled m 1 (-e)
      if num % den = 0 && num / den < twoPow 63 then some (Binary64.signed negative (num / den))
      else none
    | _ => none
  | _ => none

/-- Whether a submission confirms that text may be removed. -/
def readConfirmation (body : Json) : Checked Bool :=
  let wrong (kind : ProblemKind) : Checked Bool := .error (bodyProblem kind [.field "confirm"])
  match body.field? "confirm" with
  | none => .ok false
  | some (.bool b) => .ok b
  | some (.str word) => (readBool? word).elim (wrong .unreadableBool) .ok
  | some value =>
    match integerValue? value with
    | some 0 => .ok false
    | some 1 => .ok true
    | some _ => wrong .unreadableBool
    | none => wrong .notBool

/-- A text that may be missing or `null`. -/
def readOptionalText (name : String) (body : Json) : Checked (Option Text) :=
  match body.field? name with
  | none | some .null => .ok none
  | some (.str t) => .ok (some t)
  | some _ => .error (bodyProblem .notString [.field name])

/-- Subtitles to be fixed, and perhaps to be downloaded. -/
structure Submission where
  content : Text
  fixes : List Fix
  confirmed : Bool
  encoding : Option Text := none
  filename : Option Text := none
deriving DecidableEq, Repr

/-- The object in the body of a request. -/
def bodyObject : Body → Checked Json
  | .json (.obj fields) => .ok (.obj fields)
  | .empty => .error (bodyProblem .missing [])
  | _ => .error (bodyProblem .notObject [])

/-- The subtitles to be analyzed. -/
def readAnalysis (body : Body) : Checked Text := do readContent (← bodyObject body)

/-- The subtitles to be fixed; without a list of fixes, the times are. -/
def readFixing (body : Body) : Checked Submission := do
  let body ← bodyObject body
  let read := (readContent body).both ((readFixes [.resolveTiming] body).both (readConfirmation body))
  read.map fun (content, fixes, confirmed) => { content, fixes, confirmed }

/-- The subtitles to be downloaded; without a list of fixes, none is made. -/
def readDownload (body : Body) : Checked Submission := do
  let body ← bodyObject body
  let read := (readContent body).both <| (readFixes [] body).both <|
    (readConfirmation body).both <|
    (readOptionalText "encoding" body).both (readOptionalText "filename" body)
  read.map fun (content, fixes, confirmed, encoding, filename) =>
    { content, fixes, confirmed, encoding, filename }

/-- A file to be analyzed. -/
structure Upload where
  filename : Text
  data : Bytes
  encoding : Option Text
deriving DecidableEq, Repr

/-- The last field of a form with a given name. -/
def formField? (name : String) : Body → Option FormValue
  | .form fields => (fields.reverse.find? fun f => f.1 == name.toList).map (·.2)
  | _ => none

/-- The file in a form, and the encoding named beside it; an empty name is none. -/
def readUpload (body : Body) : Checked Upload :=
  let file : Checked (Text × Bytes) :=
    match formField? "file" body with
    | some (.file filename data) => .ok (filename, data)
    | none | some (.text []) => .error (bodyProblem .missing [.field "file"])
    | some (.text _) => .error (bodyProblem .notFile [.field "file"])
  let encoding : Checked (Option Text) :=
    match formField? "encoding" body with
    | none | some (.text []) => .ok none
    | some (.text t) => .ok (some t)
    | some (.file ..) => .error (bodyProblem .notString [.field "encoding"])
  (file.both encoding).map fun ((filename, data), encoding) => ⟨filename, data, encoding⟩

end CueCheck.Service
