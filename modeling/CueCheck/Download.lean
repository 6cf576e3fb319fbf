import CueCheck.Charset.Utf8

/-!
The name under which a fixed file is offered for download, and the header that carries it.
-/

namespace CueCheck.Download

/-- The name of a file without one. -/
def defaultName : Text := "subtitles.srt".toList

/-- The parts of a path, which slashes separate. -/
def pathParts : Text → List Text
  | [] => [[]]
  | c :: rest => if c = '/' then [] :: pathParts rest else Text.consLine c (pathParts rest)

/-- The last part of a path that names something. -/
def baseName (path : Text) : Text :=
  (((pathParts path).filter fun part => !part.isEmpty && part != ['.']).getLast?).getD []

/-- The text itself, or the given one in place of the empty text. -/
def orElse (t fallback : Text) : Text := if t.isEmpty then fallback else t

/-- The extension of a subtitle file. -/
def extension : Text := ".srt".toList

/-- What is put in front of the extension of a fixed file. -/
def mark : Text := "_fixed".toList

/-- Puts the mark in front of the first extension in a name. -/
def markExtension? : Text → Option Text
  | [] => none
  | c :: rest =>
    if extension.isPrefixOf (c :: rest) then some (mark ++ c :: rest)
    else (markExtension? rest).map (c :: ·)

/-- The name for the fixed form of a file: `movie.srt` gives `movie_fixed.srt`. -/
def fixedName (filename : Option Text) : Text :=
  let name := orElse (baseName (orElse (filename.getD []) defaultName)) defaultName
  (markExtension? name).getD (name ++ mark ++ extension)

/-- The bytes that stand for themselves in a percent-encoded name. -/
def isPlainByte (b : UInt8) : Bool :=
  (0x41 ≤ b && b ≤ 0x5A) || (0x61 ≤ b && b ≤ 0x7A) || (0x30 ≤ b && b ≤ 0x39) ||
    b == 0x5F || b == 0x2E || b == 0x2D || b == 0x7E || b == 0x2F

/-- A byte as itself, or as a percent sign and two digits. -/
def percentByte (b : UInt8) : Text :=
  if isPlainByte b then [Char.ofNat b.toNat]
  else '%' :: Text.Hex.fixed Text.Hex.capitalDigits 2 b.toNat

/-- A text with its bytes percent-encoded. -/
def percentEncode (t : Text) : Text := (Utf8.encode t).flatMap percentByte

/-- A character as it may stand in a quoted name of plain ASCII. -/
def asciiFallback (c : Char) : Char :=
  if 0x80 ≤ c.toNat then '?' else if c = '"' || c = '\\' then '_' else c

/-- The header value that offers a file under a name: a fallback in ASCII, and the name itself. -/
def contentDisposition (filename : Text) : Text :=
  "attachment; filename=\"".toList ++ filename.map asciiFallback ++
    "\"; filename*=UTF-8''".toList ++ percentEncode filename

end CueCheck.Download
