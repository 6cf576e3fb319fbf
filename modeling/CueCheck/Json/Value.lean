import CueCheck.Numeral

/-!
Values of the data format of requests, responses and list settings, and their compact text.
-/

namespace CueCheck

/-- A value of the data format. A number with a fraction or an exponent keeps its sign and its
decimal digits; `special` is a number that is not finite, by name. -/
inductive Json where
  | null
  | bool (value : Bool)
  | int (value : Int)
  | decimal (negative : Bool) (mantissa : Nat) (exponent : Int)
  | special (name : Text)
  | str (value : Text)
  | arr (items : List Json)
  | obj (fields : List (String × Json))
deriving Repr

namespace Json

def ofString (s : String) : Json := .str s.toList

def ofNat (n : Nat) : Json := .int n

/-- A value that may be missing, as `null` where it is. -/
def ofOption {α : Type} (encode : α → Json) : Option α → Json
  | none => .null
  | some a => encode a

/-- The value of a field; the last one counts where a field is given twice. -/
def field? (name : String) : Json → Option Json
  | .obj fields => (fields.reverse.find? (·.1 == name)).map (·.2)
  | _ => none

/-- One character of a string, escaped if it is a quotation mark, a backslash or a control. -/
def escapeChar (c : Char) : Text :=
  if c = '"' || c = '\\' then ['\\', c]
  else if c = '\n' then ['\\', 'n']
  else if c = '\r' then ['\\', 'r']
  else if c = '\t' then ['\\', 't']
  else if c = '\x0c' then ['\\', 'f']
  else if c = '\x08' then ['\\', 'b']
  else if c.toNat < 0x20 then '\\' :: 'u' :: Text.Hex.fixed Text.Hex.smallDigits 4 c.toNat
  else [c]

def quote (t : Text) : Text := '"' :: t.flatMap escapeChar ++ ['"']

mutual

/-- The text of a value, without blanks between its parts. -/
def render : Json → Text
  | .null => "null".toList
  | .bool true => "true".toList
  | .bool false => "false".toList
  | .int i => Numeral.ofInt i
  | .decimal negative mantissa exponent =>
    (if negative then ['-'] else []) ++ Numeral.digits mantissa ++ 'e' :: Numeral.ofInt exponent
  | .special name => name
  | .str t => quote t
  | .arr items => '[' :: renderItems items ++ [']']
  | .obj fields => '\x7b' :: renderFields fields ++ ['\x7d']

/-- The texts of values with commas between them. -/
def renderItems : List Json → Text
  | [] => []
  | [item] => render item
  | item :: rest => render item ++ ',' :: renderItems rest

/-- The texts of fields with commas between them. -/
def renderFields : List (String × Json) → Text
  | [] => []
  | [(name, value)] => quote name.toList ++ ':' :: render value
  | (name, value) :: rest => quote name.toList ++ ':' :: render value ++ ',' :: renderFields rest

end

end Json

end CueCheck
