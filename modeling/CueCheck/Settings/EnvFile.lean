import CueCheck.Text.Blank
import CueCheck.Text.Hex

/-!
Files of environment variables: lines `NAME=value` with optional quotes and comments.
-/

namespace CueCheck.EnvFile

/-- A variable and its value; a name that stands alone has none. -/
abbrev Binding := Text × Option Text

/-- A blank character within a line. -/
def isInlineBlank (c : Char) : Bool := Text.isBlank c && c != '\n'

def skipInline (t : Text) : Text := t.dropWhile isInlineBlank

/-- The text with every line ended by a newline alone. -/
def normalizeLineEnds : Text → Text
  | [] => []
  | '\r' :: '\n' :: rest => '\n' :: normalizeLineEnds rest
  | '\r' :: rest => '\n' :: normalizeLineEnds rest
  | c :: rest => c :: normalizeLineEnds rest

/-- The text after the word `export` and blanks. -/
def skipExport (t : Text) : Text :=
  match Text.after? "export".toList t with
  | some rest =>
    if (rest.takeWhile isInlineBlank).isEmpty then t else skipInline rest
  | none => t

/-- The name at the front of a line: `none` in a comment; the outer failure means that there is no
name at all. -/
def readName? : Text → Option (Option Text × Text)
  | '#' :: rest => some (none, '#' :: rest)
  | '\'' :: rest =>
    let name := rest.takeWhile (· != '\'')
    match rest.dropWhile (· != '\'') with
    | '\'' :: later => if name.isEmpty then none else some (some name, later)
    | _ => none
  | t =>
    let inName (c : Char) := c != '=' && c != '#' && !Text.isBlank c
    if (t.takeWhile inName).isEmpty then none
    else some (some (t.takeWhile inName), t.dropWhile inName)

/-- Splits a quoted text, without its opening mark, at the closing mark. A mark after a backslash
closes it only if no other mark does; then the last such mark counts. -/
def splitQuoted? (mark : Char) : Text → Option (Text × Text)
  | [] => none
  | '\\' :: c :: rest =>
    if c = mark then
      match splitQuoted? mark rest with
      | some (inside, later) => some ('\\' :: c :: inside, later)
      | none => some (['\\'], rest)
    else (splitQuoted? mark (c :: rest)).map fun (inside, later) => ('\\' :: inside, later)
  | c :: rest =>
    if c = mark then some ([], rest)
    else (splitQuoted? mark rest).map fun (inside, later) => (c :: inside, later)

/-- The character that a letter after a backslash stands for between double quotation marks. -/
def escapedChar? : Char → Option Char
  | '\\' => some '\\'
  | '\'' => some '\''
  | '"' => some '"'
  | 'a' => some '\x07'
  | 'b' => some '\x08'
  | 'f' => some '\x0c'
  | 'n' => some '\n'
  | 'r' => some '\r'
  | 't' => some '\t'
  | 'v' => some '\x0b'
  | _ => none

/-- Between single quotation marks only these marks and backslashes are escaped. -/
def escapedPlainChar? : Char → Option Char
  | '\\' => some '\\'
  | '\'' => some '\''
  | _ => none

/-- Replaces escapes by the characters that they stand for. -/
def unescape (escaped? : Char → Option Char) : Text → Text
  | [] => []
  | '\\' :: c :: rest =>
    match escaped? c with
    | some d => d :: unescape escaped? rest
    | none => '\\' :: unescape escaped? (c :: rest)
  | c :: rest => c :: unescape escaped? rest

/-- The rest of a line up to blanks and a number sign. -/
def beforeComment : Text → Text
  | [] => []
  | c :: rest =>
    if Text.isBlank c && (rest.dropWhile Text.isBlank).head? = some '#' then []
    else c :: beforeComment rest

/-- The value at the front of a text. -/
def readValue? : Text → Option (Text × Text)
  | '\'' :: rest =>
    (splitQuoted? '\'' rest).map fun (inside, later) => (unescape escapedPlainChar? inside, later)
  | '"' :: rest =>
    (splitQuoted? '"' rest).map fun (inside, later) => (unescape escapedChar? inside, later)
  | t =>
    some ((beforeComment (t.takeWhile (· != '\n'))).trimEnd, t.dropWhile (· != '\n'))

/-- The text after the end of a line, with a comment before it at most. -/
def endOfLine? (t : Text) : Option Text :=
  let t := match skipInline t with
    | '#' :: rest => rest.dropWhile (· != '\n')
    | _ => t
  match skipInline t with
  | [] => some []
  | '\n' :: rest => some rest
  | _ => none

/-- The text after the current line, whatever it holds. -/
def skipLine (t : Text) : Text :=
  match t.dropWhile (· != '\n') with
  | _ :: rest => rest
  | [] => []

/-- Reads one line of a file: the binding in it, if any, and the text after it. A line that cannot
be read is passed over from where reading stops. -/
def readLine (t : Text) : Option Binding × Text :=
  let t := skipExport t
  match readName? t with
  | none => (none, skipLine t)
  | some (name, t) =>
    let t := skipInline t
    let value := match t with
      | '=' :: rest => (readValue? (skipInline rest)).map fun (v, later) => (some v, later)
      | t => some (none, t)
    match value with
    | none =>
      (none, skipLine (match t with
        | '=' :: rest => skipInline rest
        | t => t))
    | some (value, t) =>
      match endOfLine? t with
      | some rest => (name.map fun name => (name, value), rest)
      | none => (none, skipLine t)

/-- The bindings of a file in their order. -/
def readLines : (fuel : Nat) → Text → List Binding
  | 0, _ => []
  | fuel + 1, t =>
    match Text.trimStart t with
    | [] => []
    | t =>
      let (binding, rest) := readLine t
      binding.toList ++ readLines fuel rest

/-- The value that a name has in bindings; the last one counts. -/
def lookup (bindings : List Binding) (name : Text) : Option (Option Text) :=
  (bindings.reverse.find? (·.1 == name)).map (·.2)

/-- The value of a reference to a variable, or its default where the variable is not set. -/
def resolve (known : List Binding) (name : Text) (fallback : Option Text) : Text :=
  ((lookup known name).getD (some (fallback.getD []))).getD []

/-- A reference to a variable after its opening brace: the name, the default and the rest. -/
def reference? (t : Text) : Option (Text × Option Text × Text) :=
  let inName (c : Char) := c != '\x7d' && c != ':'
  let name := t.takeWhile inName
  match t.dropWhile inName with
  | '\x7d' :: rest => some (name, none, rest)
  | ':' :: '-' :: t =>
    match t.dropWhile (· != '\x7d') with
    | _ :: rest => some (name, some (t.takeWhile (· != '\x7d')), rest)
    | [] => none
  | _ => none

/-- Replaces references to variables by their values. -/
def expand (known : List Binding) : (fuel : Nat) → Text → Text
  | 0, t => t
  | _ + 1, [] => []
  | fuel + 1, c :: rest =>
    match (Text.after? ['$', '\x7b'] (c :: rest)).bind reference? with
    | some (name, fallback, later) => resolve known name fallback ++ expand known fuel later
    | none => c :: expand known fuel rest

/-- Expands the values of bindings in order; each sees the variables from outside and the bindings
before it. -/
def expandAll (outside done : List Binding) : List Binding → List Binding
  | [] => done
  | (name, value) :: rest =>
    let value := value.map fun v => expand (outside ++ done) (v.length + 1) v
    expandAll outside (done ++ [(name, value)]) rest

/-- The bindings of a file, given the variables from outside. -/
def parse (outside : List (Text × Text)) (content : Text) : List Binding :=
  let content := normalizeLineEnds content
  expandAll (outside.map fun (name, value) => (name, some value)) []
    (readLines (content.length + 1) content)

end CueCheck.EnvFile
