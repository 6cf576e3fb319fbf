import CueCheck.Numeral

/-!
What is wrong with a value that was given, and where.
-/

namespace CueCheck

/-- One step on the way to a value: the name of a field, or a place in a list. -/
inductive Step where
  | field (name : String)
  | item (place : Nat)
deriving DecidableEq, Repr

/-- The ways in which a value can be wrong. -/
inductive ProblemKind where
  | missing
  | notString
  | emptyString
  | notList
  | notOption (options : List String)
  | notObject
  | notBool
  | unreadableBool
  | unreadableInt
  | intTooLong
  | unreadableNumber
  | notFile
deriving DecidableEq, Repr

namespace ProblemKind

/-- The name of a kind of problem in answers. -/
def code : ProblemKind → String
  | missing => "missing"
  | notString => "string_type"
  | emptyString => "string_too_short"
  | notList => "list_type"
  | notOption _ => "enum"
  | notObject => "model_attributes_type"
  | notBool => "bool_type"
  | unreadableBool => "bool_parsing"
  | unreadableInt => "int_parsing"
  | intTooLong => "int_parsing_size"
  | unreadableNumber => "float_parsing"
  | notFile => "value_error"

/-- Options in quotation marks, with commas and a final "or" between them. -/
def orList (options : List String) : String :=
  let quoted := options.map fun name => s!"'{name}'"
  match quoted.getLast? with
  | none => ""
  | some last =>
    if quoted.length = 1 then last else ", ".intercalate quoted.dropLast ++ " or " ++ last

def message : ProblemKind → String
  | missing => "Field required"
  | notString => "Input should be a valid string"
  | emptyString => "String should have at least 1 character"
  | notList => "Input should be a valid list"
  | notOption options => "Input should be " ++ orList options
  | notObject => "Input should be a valid dictionary or object to extract fields from"
  | notBool => "Input should be a valid boolean"
  | unreadableBool => "Input should be a valid boolean, unable to interpret input"
  | unreadableInt => "Input should be a valid integer, unable to parse string as an integer"
  | intTooLong => "Unable to parse input string as an integer, exceeded maximum size"
  | unreadableNumber => "Input should be a valid number, unable to parse string as a number"
  | notFile => "Value error, Expected UploadFile, received: <class 'str'>"

end ProblemKind

/-- A wrong value. -/
structure Problem where
  kind : ProblemKind
  location : List Step
deriving DecidableEq, Repr

/-- The words for yes and no. -/
def yesWords : List String := ["1", "on", "t", "true", "y", "yes"]

def noWords : List String := ["0", "off", "f", "n", "no", "false"]

/-- The truth value that a word stands for, whatever the case of its ASCII letters. -/
def readBool? (word : Text) : Option Bool :=
  let word := String.ofList (word.map Char.toLower)
  if yesWords.contains word then some true
  else if noWords.contains word then some false
  else none

end CueCheck
