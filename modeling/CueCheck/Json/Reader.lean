import CueCheck.Json.Value

/-!
Reading values of the data format from text.
-/

namespace CueCheck.Json

def isSpace (c : Char) : Bool := c == ' ' || c == '\t' || c == '\n' || c == '\r'

def skipSpaces (t : Text) : Text := t.dropWhile isSpace

/-- The number that four hexadecimal digits at the front of a text stand for. -/
def codeUnit? : Text → Option (Nat × Text)
  | a :: b :: c :: d :: rest => do
    let a ← Text.Hex.value? a
    let b ← Text.Hex.value? b
    let c ← Text.Hex.value? c
    let d ← Text.Hex.value? d
    return (((a * 16 + b) * 16 + c) * 16 + d, rest)
  | _ => none

/-- The character of an escape that is one letter. -/
def escaped? : Char → Option Char
  | '"' => some '"'
  | '\\' => some '\\'
  | '/' => some '/'
  | 'b' => some '\x08'
  | 'f' => some '\x0c'
  | 'n' => some '\n'
  | 'r' => some '\r'
  | 't' => some '\t'
  | _ => none

/-- The character that starts with a given code unit; a high surrogate takes the low surrogate
after it, and a surrogate without its partner becomes a replacement character. -/
def charOfUnit (u : Nat) (t : Text) : Char × Text :=
  let lone := if 0xD800 ≤ u && u < 0xE000 then '\uFFFD' else Char.ofNat u
  if 0xD800 ≤ u && u < 0xDC00 then
    match (Text.after? ['\\', 'u'] t).bind codeUnit? with
    | some (v, rest) =>
      if 0xDC00 ≤ v && v < 0xE000 then
        (Char.ofNat (0x10000 + (u - 0xD800) * 0x400 + (v - 0xDC00)), rest)
      else (lone, t)
    | none => (lone, t)
  else (lone, t)

/-- Reads a string after its opening quotation mark. -/
def readString? : (fuel : Nat) → Text → Option (Text × Text)
  | 0, _ | _, [] => none
  | fuel + 1, c :: rest =>
    if c = '"' then some ([], rest)
    else if c.toNat < 0x20 then none
    else if c = '\\' then
      match rest with
      | 'u' :: rest => do
        let (u, rest) ← codeUnit? rest
        let (c, rest) := charOfUnit u rest
        let (t, rest) ← readString? fuel rest
        return (c :: t, rest)
      | c :: rest => do
        let c ← escaped? c
        let (t, rest) ← readString? fuel rest
        return (c :: t, rest)
      | [] => none
    else do
      let (t, rest) ← readString? fuel rest
      return (c :: t, rest)

/-- A run of digits at the front of a text. -/
def digits? (t : Text) : Option (Text × Text) :=
  match t.takeWhile Numeral.isDigit with
  | [] => none
  | ds => some (ds, t.dropWhile Numeral.isDigit)

/-- The digits of a fraction, if the text starts with a point and digits. -/
def fraction (t : Text) : Option (Text × Text) := (Text.after? ['.'] t).bind digits?

/-- The value of an exponent, if the text starts with one. -/
def exponent (t : Text) : Option (Int × Text) := do
  let t ← (Text.after? ['e'] t).or (Text.after? ['E'] t)
  match t with
  | '-' :: t => do
    let (ds, t) ← digits? t
    return (-(Numeral.value ds : Int), t)
  | t => do
    let (ds, t) ← digits? ((Text.after? ['+'] t).getD t)
    return (Numeral.value ds, t)

/-- Reads a number after its sign. -/
def readNumber? (negative : Bool) (t : Text) : Option (Json × Text) := do
  let (whole, t) ← match t with
    | '0' :: t => some (['0'], t)
    | t => digits? t
  let frac := fraction t
  let t := (frac.map (·.2)).getD t
  let exp := exponent t
  let t := (exp.map (·.2)).getD t
  if frac.isNone && exp.isNone then
    let n : Int := Numeral.value whole
    return (.int (if negative then -n else n), t)
  else
    let places := (frac.map (·.1)).getD []
    let power := (exp.map (·.1)).getD 0
    return (.decimal negative (Numeral.value (whole ++ places)) (power - places.length), t)

/-- Reads a word that is a value, or a number. -/
def readScalar? (t : Text) : Option (Json × Text) :=
  let word (name : String) (value : Json) : Option (Json × Text) :=
    (Text.after? name.toList t).map fun rest => (value, rest)
  (word "null" .null).or <| (word "true" (.bool true)).or <| (word "false" (.bool false)).or <|
    (word "NaN" (.special "NaN".toList)).or <|
    (word "Infinity" (.special "Infinity".toList)).or <|
    (word "-Infinity" (.special "-Infinity".toList)).or <|
    match t with
    | '-' :: t => readNumber? true t
    | t => readNumber? false t

mutual

/-- Reads a value at the front of a text. -/
def readValue? : (fuel : Nat) → Text → Option (Json × Text)
  | 0, _ => none
  | fuel + 1, t =>
    match t with
    | '"' :: t => (readString? t.length t).map fun (s, rest) => (.str s, rest)
    | '[' :: t =>
      match skipSpaces t with
      | ']' :: rest => some (.arr [], rest)
      | t => (readItems? fuel t).map fun (items, rest) => (.arr items, rest)
    | '\x7b' :: t =>
      match skipSpaces t with
      | '\x7d' :: rest => some (.obj [], rest)
      | t => (readFields? fuel t).map fun (fields, rest) => (.obj fields, rest)
    | t => readScalar? t

/-- Reads the items of a list up to its closing bracket. -/
def readItems? : (fuel : Nat) → Text → Option (List Json × Text)
  | 0, _ => none
  | fuel + 1, t => do
    let (item, t) ← readValue? fuel t
    match skipSpaces t with
    | ']' :: rest => some ([item], rest)
    | ',' :: t => do
      let (items, rest) ← readItems? fuel (skipSpaces t)
      return (item :: items, rest)
    | _ => none

/-- Reads the fields of an object up to its closing brace. -/
def readFields? : (fuel : Nat) → Text → Option (List (String × Json) × Text)
  | 0, _ => none
  | fuel + 1, t => do
    let t ← Text.after? ['"'] t
    let (name, t) ← readString? t.length t
    let t ← Text.after? [':'] (skipSpaces t)
    let (value, t) ← readValue? fuel (skipSpaces t)
    let entry := (String.ofList name, value)
    match skipSpaces t with
    | '\x7d' :: rest => some ([entry], rest)
    | ',' :: t => do
      let (fields, rest) ← readFields? fuel (skipSpaces t)
      return (entry :: fields, rest)
    | _ => none

end

/-- Reads a text that is one value, with blanks around it at most. -/
def parse? (t : Text) : Option Json := do
  let (value, rest) ← readValue? (2 * t.length + 2) (skipSpaces t)
  guard (skipSpaces rest).isEmpty
  return value

end CueCheck.Json
