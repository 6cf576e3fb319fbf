import CueCheck.Text.Blank
import CueCheck.Text.Word

/-!
The shapes in which credentials occur in log text.
-/

namespace CueCheck.Redaction

/-- What stands in place of a credential. -/
def mask : Text := "***REDACTED***".toList

/-- The small ASCII letter that a character counts as when case is ignored; four letters outside
ASCII count as `s`, `k` and `i`. -/
def foldCase (c : Char) : Char :=
  if 'A' ≤ c && c ≤ 'Z' then Char.ofNat (c.toNat + 0x20)
  else if c.toNat = 0x17F then 's'
  else if c.toNat = 0x212A then 'k'
  else if c.toNat = 0x130 || c.toNat = 0x131 then 'i'
  else c

/-- A word at the front of a text whatever its case: the text as it stands there, and the rest. -/
def word? : (word : Text) → Text → Option (Text × Text)
  | [], t => some ([], t)
  | _ :: _, [] => none
  | w :: ws, c :: t =>
    if foldCase c = w then (word? ws t).map fun (found, rest) => (c :: found, rest) else none

theorem word?_eq_append {word t found rest : Text} (h : word? word t = some (found, rest)) :
    t = found ++ rest := by
  induction word generalizing t found with
  | nil =>
    simp only [word?, Option.some.injEq, Prod.mk.injEq] at h
    obtain ⟨rfl, rfl⟩ := h
    rfl
  | cons w ws ih =>
    cases t with
    | nil => simp [word?] at h
    | cons c t =>
      simp only [word?] at h
      split at h
      · obtain ⟨⟨f, r⟩, hf, he⟩ := Option.map_eq_some_iff.1 h
        simp only [Prod.mk.injEq] at he
        obtain ⟨rfl, rfl⟩ := he
        simp [ih hf]
      · simp at h

/-- A run of one or more characters of a class at the front of a text, and the rest. -/
def run? (allowed : Char → Bool) (t : Text) : Option Text :=
  if (t.takeWhile allowed).isEmpty then none else some (t.dropWhile allowed)

/-- The text without one quotation mark at its front. -/
def skipQuote : Text → Text
  | '"' :: rest | '\'' :: rest => rest
  | t => t

/-- A character of a credential in a header: neither blank nor a comma. -/
def isHeaderChar (c : Char) : Bool := !Text.isBlank c && c != ','

/-- A character of an assigned key: neither blank, nor a comma, nor a closing bracket. -/
def isAssignedChar (c : Char) : Bool := isHeaderChar c && c != ')'

/-- A character of a token: a letter of the alphabet whatever its case, a digit, or `_`, `-`,
`.`. -/
def isTokenChar (c : Char) : Bool :=
  let f := foldCase c
  ('a' ≤ f && f ≤ 'z') || ('0' ≤ f && f ≤ '9') || f == '_' || f == '-' || f == '.'

/-- A credential found in a text: what replaces it, and the text after it. -/
structure Found where
  replacement : Text
  rest : Text
deriving DecidableEq, Repr

/-- Finds a credential at the front of a text, given the character before it. -/
abbrev Finder := Option Char → Text → Option Found

/-- Whether a word may start after a character. -/
def atWordStart (before : Option Char) : Bool := !(before.elim false Text.isWord)

/-- A header `Authorization:` with its value, after the word `Bearer` if another follows that. -/
def authorization : Finder := fun _ t => do
  let (name, t) ← word? "authorization".toList t
  let t ← Text.after? [':'] t
  let t ← run? Text.isBlank t
  let bearer := do
    let (_, t) ← word? "bearer".toList t
    run? isHeaderChar (← run? Text.isBlank t)
  let rest ← bearer.or (run? isHeaderChar t)
  return ⟨name ++ [':', ' '] ++ mask, rest⟩

/-- A header `X-API-Key:` with its value. -/
def apiKeyHeader : Finder := fun _ t => do
  let (name, t) ← word? "x-api-key".toList t
  let t ← Text.after? [':'] t
  let rest ← run? isHeaderChar (Text.trimStart t)
  return ⟨name ++ [':', ' '] ++ mask, rest⟩

/-- An assignment to `API_KEY`, which starts a word. -/
def apiKeyAssignment : Finder := fun before t => do
  guard (atWordStart before)
  let (name, t) ← word? "api_key".toList t
  let t ← Text.after? ['='] t
  let rest ← run? isAssignedChar t
  return ⟨name ++ '=' :: mask, rest⟩

/-- One of the names that credentials are given under. -/
def secretName? (t : Text) : Option (Text × Text) :=
  let apiKey := do
    let (api, t) ← word? "api".toList t
    let (joint, t) :=
      match t with
      | '_' :: rest => (['_'], rest)
      | '-' :: rest => (['-'], rest)
      | t => ([], t)
    let (key, t) ← word? "key".toList t
    return (api ++ joint ++ key, t)
  apiKey.or <| (word? "token".toList t).or <|
    (word? "secret".toList t).or (word? "password".toList t)

/-- The fewest characters of a named credential. -/
def minSecretLength : Nat := 20

/-- A name of a credential, a colon or an equals sign, and a long token; either may be quoted. -/
def namedSecret : Finder := fun _ t => do
  let (name, t) ← secretName? t
  let t := Text.trimStart (skipQuote t)
  let t ← (Text.after? [':'] t).or (Text.after? ['='] t)
  let t := skipQuote (Text.trimStart t)
  guard (minSecretLength ≤ (t.takeWhile isTokenChar).length)
  return ⟨name ++ '=' :: mask, t.dropWhile isTokenChar⟩

/-- The word `Bearer` and a token. -/
def bearerToken : Finder := fun before t => do
  guard (atWordStart before)
  let (_, t) ← word? "bearer".toList t
  let t ← run? Text.isBlank t
  let rest ← run? (fun c => isTokenChar c || c == '=') t
  return ⟨"Bearer ".toList ++ mask, rest⟩

end CueCheck.Redaction
