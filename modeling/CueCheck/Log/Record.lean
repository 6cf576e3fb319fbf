import CueCheck.Json.Value
import CueCheck.Redaction
import CueCheck.Text.Quoted

/-!
Log records: a message with conversions, the arguments for them, and the redaction of both.
-/

namespace CueCheck

/-- The message of a record: none, a number, or a text in which `%` starts a conversion. -/
inductive LogMessage where
  | none
  | int (value : Int)
  | text (value : Text)
deriving DecidableEq, Repr

/-- The arguments of a record, by place or by name. -/
inductive LogArguments where
  | none
  | positional (values : List Json)
  | named (values : List (String × Json))
deriving Repr

/-- A record for the log; the trace is that of an exception. -/
structure LogRecord where
  message : LogMessage
  arguments : LogArguments := .none
  trace : Option Text := none
deriving Repr

/-- Why a message does not go with its arguments. -/
inductive FormatFailure where
  | tooFewArguments
  | tooManyArguments
  | notNumber (type : String)
  | noSuchName (name : Text)
  | notNamed
  | incompleteName
  | incomplete
  | unknownConversion (conversion : Char) (place : Nat)
deriving DecidableEq, Repr

namespace FormatFailure

def message : FormatFailure → String
  | tooFewArguments => "not enough arguments for format string"
  | tooManyArguments => "not all arguments converted during string formatting"
  | notNumber type => s!"%d format: a real number is required, not {type}"
  | noSuchName name => String.ofList name.quoted
  | notNamed => "format requires a mapping"
  | incompleteName => "incomplete format key"
  | incomplete => "incomplete format"
  | unknownConversion conversion place =>
    "unsupported format character '" ++ conversion.toString ++ "' (0x" ++
      String.ofList (Nat.toDigits 16 conversion.toNat) ++ s!") at index {place}"

end FormatFailure

namespace LogRecord

mutual

/-- A value as it shows inside a list. -/
def shownInside : Json → Text
  | .null => "None".toList
  | .bool true => "True".toList
  | .bool false => "False".toList
  | .int i => Numeral.ofInt i
  | .decimal negative mantissa exponent => Json.render (.decimal negative mantissa exponent)
  | .special name => name
  | .str t => t.quoted
  | .arr items => '[' :: shownItems items ++ [']']
  | .obj fields => '\x7b' :: shownFields fields ++ ['\x7d']

def shownItems : List Json → Text
  | [] => []
  | [item] => shownInside item
  | item :: rest => shownInside item ++ ',' :: ' ' :: shownItems rest

def shownFields : List (String × Json) → Text
  | [] => []
  | [(name, value)] => Text.quoted name.toList ++ ':' :: ' ' :: shownInside value
  | (name, value) :: rest =>
    Text.quoted name.toList ++ ':' :: ' ' :: shownInside value ++ ',' :: ' ' :: shownFields rest

end

/-- A value as a message shows it. -/
def shown : Json → Text
  | .str t => t
  | value => shownInside value

/-- The word for the type of a value. -/
def typeName : Json → String
  | .null => "NoneType"
  | .bool _ => "bool"
  | .int _ => "int"
  | .decimal .. | .special _ => "float"
  | .str _ => "str"
  | .arr _ => "list"
  | .obj _ => "dict"

/-- The digits of a number. -/
def shownInt : Json → Except FormatFailure Text
  | .int i => .ok (Numeral.ofInt i)
  | .bool b => .ok (Numeral.ofInt (if b then 1 else 0))
  | value => .error (.notNumber (typeName value))

/-- The arguments that conversions without a name still have to take. -/
structure Pending where
  values : List Json
  /-- The arguments by name, if they are given so. -/
  names : Option (List (String × Json))

/-- The argument for a conversion, and the arguments that are left. -/
def takeArgument (pending : Pending) (name : Option Text) :
    Except FormatFailure (Json × Pending) :=
  match name with
  | some name =>
    match pending.names with
    | none => .error .notNamed
    | some fields =>
      match Json.field? (String.ofList name) (.obj fields) with
      | some value => .ok (value, { pending with values := [] })
      | none => .error (.noSuchName name)
  | none =>
    match pending.values with
    | value :: values => .ok (value, { pending with values })
    | [] => .error .tooFewArguments

/-- Splits a name in brackets from the text after it. -/
def splitName : Text → Except FormatFailure (Option Text × Text)
  | '(' :: rest =>
    match rest.dropWhile (· != ')') with
    | _ :: later => .ok (some (rest.takeWhile (· != ')')), later)
    | [] => .error .incompleteName
  | t => .ok (none, t)

/-- Fills the conversions of a message; `length` is that of the whole message. -/
def fill (length : Nat) : (fuel : Nat) → Pending → Text → Except FormatFailure Text
  | 0, _, _ => .ok []
  | _ + 1, pending, [] =>
    if pending.names.isNone && !pending.values.isEmpty then .error .tooManyArguments else .ok []
  | fuel + 1, pending, '%' :: t => do
    let (name, t) ← splitName t
    match t with
    | '%' :: rest => return '%' :: (← fill length fuel pending rest)
    | 's' :: rest =>
      let (value, pending) ← takeArgument pending name
      return shown value ++ (← fill length fuel pending rest)
    | 'd' :: rest =>
      let (value, pending) ← takeArgument pending name
      return (← shownInt value) ++ (← fill length fuel pending rest)
    | c :: rest => .error (.unknownConversion c (length - rest.length - 1))
    | [] => .error .incomplete
  | fuel + 1, pending, c :: rest => return c :: (← fill length fuel pending rest)

/-- The text of a message before its conversions are filled. -/
def messageText : LogMessage → Text
  | .none => "None".toList
  | .int i => Numeral.ofInt i
  | .text t => t

/-- The message with its conversions filled; without arguments it stays as it is. -/
def formatted (record : LogRecord) : Except FormatFailure Text :=
  let t := messageText record.message
  let fillWith (pending : Pending) := fill t.length (t.length + 1) pending t
  match record.arguments with
  | .none | .positional [] | .named [] => .ok t
  | .positional values => fillWith ⟨values, none⟩
  | .named fields => fillWith ⟨[.obj fields], some fields⟩

/-- Whether there is any message: neither an empty text nor zero. -/
def hasMessage : LogMessage → Bool
  | .none | .int 0 | .text [] => false
  | _ => true

/-- An argument without credentials; only texts can hold them. -/
def redactArgument : Json → Json
  | .str t => .str (Redaction.redact t)
  | value => value

/-- The record without the credentials in its message, its arguments and its trace. -/
def redact (record : LogRecord) : LogRecord where
  message :=
    if hasMessage record.message then .text (Redaction.redact (messageText record.message))
    else record.message
  arguments :=
    match record.arguments with
    | .none => .none
    | .positional values => .positional (values.map redactArgument)
    | .named fields => .named (fields.map fun (name, value) => (name, redactArgument value))
  trace := record.trace.map fun t => if t.isEmpty then t else Redaction.redact t

end LogRecord

end CueCheck
