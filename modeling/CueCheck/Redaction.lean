import CueCheck.Redaction.Secret

/-!
Removing credentials from log text.
-/

namespace CueCheck.Redaction

/-- The last character of a text in front of a given rest of it. -/
def lastBefore (t rest : Text) : Option Char := (t.take (t.length - rest.length)).getLast?

/-- Replaces the credentials that a finder finds, from left to right. -/
def replaceAll (finder : Finder) (before : Option Char) : Text → Text
  | [] => []
  | c :: t =>
    match finder before (c :: t) with
    | some found =>
      if _h : found.rest.length < (c :: t).length then
        found.replacement ++ replaceAll finder (lastBefore (c :: t) found.rest) found.rest
      else c :: replaceAll finder (some c) t
    | none => c :: replaceAll finder (some c) t
termination_by t => t.length
decreasing_by
  · exact _h
  · simp
  · simp

/-- The finders in the order of their use; headers come before general names. -/
def finders : List Finder :=
  [authorization, apiKeyHeader, apiKeyAssignment, namedSecret, bearerToken]

/-- A text without the credentials in it. -/
def redact (t : Text) : Text := finders.foldl (fun t finder => replaceAll finder none t) t

end CueCheck.Redaction
