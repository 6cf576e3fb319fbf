import CueCheck.Text.Hex
import CueCheck.Text.Printable

/-!
Text in quotation marks, with escapes for whatever would not show.
-/

namespace CueCheck.Text

/-- The mark around a quoted text: the single one, unless only the single one occurs inside. -/
def quoteMark (t : Text) : Char :=
  if t.contains '\'' && !t.contains '"' then '"' else '\''

/-- The code of a character that does not show, in two, four or eight digits. -/
def escapeCode (c : Char) : Text :=
  let n := c.toNat
  if n < 0x100 then '\\' :: 'x' :: Hex.fixed Hex.smallDigits 2 n
  else if n < 0x10000 then '\\' :: 'u' :: Hex.fixed Hex.smallDigits 4 n
  else '\\' :: 'U' :: Hex.fixed Hex.smallDigits 8 n

/-- One character as it stands between two given quotation marks. -/
def quoteChar (mark c : Char) : Text :=
  if c = '\\' || c = mark then ['\\', c]
  else if c = '\t' then ['\\', 't']
  else if c = '\n' then ['\\', 'n']
  else if c = '\r' then ['\\', 'r']
  else if isPrintable c then [c]
  else escapeCode c

/-- A text in quotation marks. -/
def quoted (t : Text) : Text :=
  let mark := quoteMark t
  mark :: t.flatMap (quoteChar mark) ++ [mark]

end CueCheck.Text
