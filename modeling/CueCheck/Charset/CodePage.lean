import CueCheck.Charset.Bytes

/-!
Encodings of one byte a character, given by the characters of their upper half.
-/

namespace CueCheck

/-- An encoding in single bytes: bytes below 0x80 stand for themselves, the others for the code
points of a table, except for those that stand for nothing. -/
structure CodePage where
  upper : List Nat
  undefinedBytes : List Nat := []

namespace CodePage

/-- The character that a byte stands for. -/
def decodeByte (page : CodePage) (b : UInt8) : Option Char :=
  if b < 0x80 then some (Char.ofNat b.toNat)
  else if page.undefinedBytes.contains b.toNat then none
  else (page.upper[b.toNat - 0x80]?).map Char.ofNat

/-- The byte that stands for a character. -/
def encodeChar (page : CodePage) (c : Char) : Option UInt8 :=
  if c.toNat < 0x80 then some (UInt8.ofNat c.toNat)
  else do
    let place ← page.upper.idxOf? c.toNat
    guard (!page.undefinedBytes.contains (0x80 + place))
    return UInt8.ofNat (0x80 + place)

/-- Reads bytes as text; the offset is that of the first byte in the whole data. -/
def decodeFrom (page : CodePage) (offset : Nat) : Bytes → Except DecodeFault Text
  | [] => .ok []
  | b :: rest =>
    match page.decodeByte b with
    | some c => (page.decodeFrom (offset + 1) rest).map (c :: ·)
    | none => .error ⟨"charmap", offset, offset + 1, "character maps to <undefined>"⟩

def decode (page : CodePage) (data : Bytes) : Except DecodeFault Text := page.decodeFrom 0 data

/-- The bytes of a text, or the first run of characters that the encoding lacks. -/
def encode (page : CodePage) : Text → Except Text Bytes
  | [] => .ok []
  | c :: rest =>
    match page.encodeChar c with
    | some b => (page.encode rest).map (b :: ·)
    | none => .error (c :: rest.takeWhile fun d => (page.encodeChar d).isNone)

/-- The encoding of Western European languages in which each byte is its own code point. -/
def latin1 : CodePage where
  upper := List.range' 0x80 0x80

/-- The Western European encoding with typographic marks. -/
def windows1252 : CodePage where
  upper := [
    0x20AC, 0x0081, 0x201A, 0x0192, 0x201E, 0x2026, 0x2020, 0x2021, 0x02C6, 0x2030, 0x0160,
    0x2039, 0x0152, 0x008D, 0x017D, 0x008F, 0x0090, 0x2018, 0x2019, 0x201C, 0x201D, 0x2022,
    0x2013, 0x2014, 0x02DC, 0x2122, 0x0161, 0x203A, 0x0153, 0x009D, 0x017E, 0x0178] ++
    List.range' 0xA0 0x60
  undefinedBytes := [0x81, 0x8D, 0x8F, 0x90, 0x9D]

/-- The encoding of Arabic. -/
def windows1256 : CodePage where
  upper := [
    0x20AC, 0x067E, 0x201A, 0x0192, 0x201E, 0x2026, 0x2020, 0x2021, 0x02C6, 0x2030, 0x0679,
    0x2039, 0x0152, 0x0686, 0x0698, 0x0688, 0x06AF, 0x2018, 0x2019, 0x201C, 0x201D, 0x2022,
    0x2013, 0x2014, 0x06A9, 0x2122, 0x0691, 0x203A, 0x0153, 0x200C, 0x200D, 0x06BA, 0x00A0,
    0x060C, 0x00A2, 0x00A3, 0x00A4, 0x00A5, 0x00A6, 0x00A7, 0x00A8, 0x00A9, 0x06BE, 0x00AB,
    0x00AC, 0x00AD, 0x00AE, 0x00AF, 0x00B0, 0x00B1, 0x00B2, 0x00B3, 0x00B4, 0x00B5, 0x00B6,
    0x00B7, 0x00B8, 0x00B9, 0x061B, 0x00BB, 0x00BC, 0x00BD, 0x00BE, 0x061F, 0x06C1, 0x0621,
    0x0622, 0x0623, 0x0624, 0x0625, 0x0626, 0x0627, 0x0628, 0x0629, 0x062A, 0x062B, 0x062C,
    0x062D, 0x062E, 0x062F, 0x0630, 0x0631, 0x0632, 0x0633, 0x0634, 0x0635, 0x0636, 0x00D7,
    0x0637, 0x0638, 0x0639, 0x063A, 0x0640, 0x0641, 0x0642, 0x0643, 0x00E0, 0x0644, 0x00E2,
    0x0645, 0x0646, 0x0647, 0x0648, 0x00E7, 0x00E8, 0x00E9, 0x00EA, 0x00EB, 0x0649, 0x064A,
    0x00EE, 0x00EF, 0x064B, 0x064C, 0x064D, 0x064E, 0x00F4, 0x064F, 0x0650, 0x00F7, 0x0651,
    0x00F9, 0x0652, 0x00FB, 0x00FC, 0x200E, 0x200F, 0x06D2]

example : windows1256.upper.length = 128 := rfl

end CodePage

end CueCheck
