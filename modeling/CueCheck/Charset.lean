import CueCheck.Charset.CodePage
import CueCheck.Charset.Name
import CueCheck.Charset.Utf16
import CueCheck.Charset.Utf8

/-!
Reading and writing text in a named character set.
-/

namespace CueCheck

namespace Charset

def decode : Charset → Bytes → Except DecodeFault Text
  | utf8 => Utf8.decode
  | utf16 => Utf16.decode
  | latin1 => CodePage.latin1.decode
  | windows1252 => CodePage.windows1252.decode
  | windows1256 => CodePage.windows1256.decode

/-- The bytes of a text, or the first run of characters that the character set lacks. -/
def encode : Charset → Text → Except Text Bytes
  | utf8, t => .ok (Utf8.encode t)
  | utf16, t => .ok (Utf16.encode t)
  | latin1, t => CodePage.latin1.encode t
  | windows1252, t => CodePage.windows1252.encode t
  | windows1256, t => CodePage.windows1256.encode t

end Charset

/-- The mark that a file may start with. -/
def byteOrderMark : Char := '\uFEFF'

/-- Decodes data in an encoding given by name. Data without bytes is the empty text in every
encoding, known or not. -/
def decodeData (encoding : Text) (data : Bytes) : Except Failure (Except DecodeFault Text) := do
  let charset? ← Charset.ofName? encoding
  match data, charset? with
  | [], _ => return .ok []
  | data, some charset => return charset.decode data
  | _, none => .error (.unknownCharset encoding)

/-- The text of a file in an encoding given by name, without leading byte order marks. -/
def readText (encoding : Text) (data : Bytes) : Except Failure Text := do
  match ← decodeData encoding data with
  | .ok text => return text.dropWhile (· == byteOrderMark)
  | .error fault => .error (.undecodable encoding fault.start)

/-- The bytes of a text in an encoding given by name. -/
def encodeText (encoding : Text) (t : Text) : Except Failure Bytes := do
  let charset ← Charset.ofName encoding
  match charset.encode t with
  | .ok data => return data
  | .error run => .error (.unencodable run encoding)

/-- Where the bytes of a file come from: they are at hand, or reading them fails. -/
inductive Source where
  | bytes (data : Bytes)
  | failing (reason : Text)
deriving DecidableEq, Repr

def Source.read : Source → Except Failure Bytes
  | bytes data => .ok data
  | failing reason => .error (.unreadable reason)

/-- The encodings on offer, and the one that is used where none is named. -/
structure EncodingMenu where
  options : List Text
  fallback : Text
deriving DecidableEq, Repr

namespace EncodingMenu

section

variable {κ : Type} [DecidableEq κ]

/-- The first option that means a given character set. -/
def find (registry : Registry κ) (charset : κ) : List Text → Except Failure (Option Text)
  | [] => .ok none
  | option :: rest => do
    if (← registry.lookup option) = charset then return some option
    else find registry charset rest

/-- The option that a name means in a registry; no name, or an empty one, means the fallback. -/
def resolveIn (menu : EncodingMenu) (registry : Registry κ) (name : Option Text) :
    Except Failure Text :=
  match name with
  | none | some [] => .ok menu.fallback
  | some name => do
    let missing := Failure.unsupportedEncoding name menu.options
    let some charset ← registry.lookup? name | .error missing
    let some option ← find registry charset menu.options | .error missing
    return option

end

/-- The option that a name means. -/
def resolve (menu : EncodingMenu) (name : Option Text) : Except Failure Text :=
  menu.resolveIn Charset.registry name

end EncodingMenu

end CueCheck
