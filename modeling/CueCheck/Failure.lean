import CueCheck.Text.Quoted

/-!
The ways in which reading, checking, fixing and writing subtitles can fail, and their wording.
-/

namespace CueCheck

/-- The cause of a failed operation. -/
inductive Failure where
  /-- A numeral has more digits than the reader of numbers accepts. -/
  | numeralTooLong (digits : Nat)
  /-- A duration in seconds lies outside the range of floating-point numbers. -/
  | durationTooLarge
  /-- A number in tenths needs more digits than fixed-point arithmetic keeps. -/
  | tenthsTooLong
  /-- A position lies outside the document. -/
  | noSuchEntry
  /-- A word names no kind of issue. -/
  | unknownKind (name : Text)
  /-- A word names no fix. -/
  | unknownOperation (name : Text)
  /-- A fix that removes text was asked for without confirmation. -/
  | confirmationRequired (operation : String)
  /-- An operation needs a document and none is loaded. -/
  | nothingLoaded
  /-- An encoding is not on the menu. -/
  | unsupportedEncoding (name : Text) (menu : List Text)
  /-- A name belongs to no character set. -/
  | unknownCharset (name : Text)
  /-- The name of a character set holds the character U+0000. -/
  | nullInCharsetName
  /-- A file could not be read. -/
  | unreadable (reason : Text)
  /-- The byte at an offset starts a sequence that is not text in the encoding. -/
  | undecodable (encoding : Text) (offset : Nat)
  /-- A run of characters does not exist in the encoding. -/
  | unencodable (run : Text) (encoding : Text)
deriving DecidableEq, Repr

/-- The most digits that a numeral may have. -/
def maxNumeralDigits : Nat := 4300

/-- The wording of a failure. -/
def Failure.message : Failure → String
  | numeralTooLong digits =>
    s!"Exceeds the limit ({maxNumeralDigits} digits) for integer string conversion: value has " ++
      s!"{digits} digits; use sys.set_int_max_str_digits() to increase the limit"
  | durationTooLarge => "integer division result too large for a float"
  | tenthsTooLong => "[<class 'decimal.InvalidOperation'>]"
  | noSuchEntry => "list index out of range"
  | unknownKind name => String.ofList name.quoted ++ " is not a valid IssueKind"
  | unknownOperation name => String.ofList name.quoted ++ " is not a valid FixOperation"
  | confirmationRequired operation =>
    s!"Operation '{operation}' permanently removes text and requires confirmation"
  | nothingLoaded => "No subtitle file has been loaded"
  | unsupportedEncoding name menu =>
    "Unsupported encoding '" ++ String.ofList name ++ "'. Supported encodings: " ++
      ", ".intercalate (menu.map String.ofList)
  | unknownCharset name => "unknown encoding: " ++ String.ofList name
  | nullInCharsetName => "embedded null character"
  | unreadable reason => "Could not read subtitle file: " ++ String.ofList reason
  | undecodable encoding offset =>
    "File is not valid " ++ String.ofList encoding ++
      s!" text (byte {offset}). Try re-reading it with another encoding."
  | unencodable run encoding =>
    "Character " ++ String.ofList run.quoted ++ " cannot be written as " ++
      String.ofList encoding

end CueCheck
