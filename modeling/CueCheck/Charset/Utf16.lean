import CueCheck.Charset.Bytes

/-!
The encoding of text in units of two bytes, with a mark for their order.
-/

namespace CueCheck.Utf16

/-- The order of the two bytes of a unit. -/
inductive ByteOrder where
  | little
  | big
deriving DecidableEq, Repr

namespace ByteOrder

/-- The unit that two bytes make. -/
def unit : ByteOrder → UInt8 → UInt8 → Nat
  | little, a, b => a.toNat + 0x100 * b.toNat
  | big, a, b => b.toNat + 0x100 * a.toNat

def codec : ByteOrder → String
  | little => "utf-16-le"
  | big => "utf-16-be"

end ByteOrder

/-- The two bytes of a unit, the low one first. -/
def unitBytes (n : Nat) : Bytes := [UInt8.ofNat (n % 0x100), UInt8.ofNat (n / 0x100)]

/-- The units of one character: one, or a pair of surrogates. -/
def encodeChar (c : Char) : Bytes :=
  let n := c.toNat
  if n < 0x10000 then unitBytes n
  else unitBytes (0xD800 + (n - 0x10000) / 0x400) ++ unitBytes (0xDC00 + (n - 0x10000) % 0x400)

/-- The byte order mark and the units of a text, low bytes first. -/
def encode (t : Text) : Bytes := 0xFF :: 0xFE :: t.flatMap encodeChar

def isHigh (u : Nat) : Bool := 0xD800 ≤ u && u < 0xDC00

def isLow (u : Nat) : Bool := 0xDC00 ≤ u && u < 0xE000

/-- Reads units as text; the offset is that of the first byte in the whole data. -/
def decodeFrom (order : ByteOrder) (offset : Nat) : Bytes → Except DecodeFault Text
  | [] => .ok []
  | [_] => .error ⟨order.codec, offset, offset + 1, "truncated data"⟩
  | a :: b :: rest =>
    let u := order.unit a b
    if isHigh u then
      match rest with
      | c :: d :: rest =>
        let v := order.unit c d
        if isLow v then
          (decodeFrom order (offset + 4) rest).map
            (Char.ofNat (0x10000 + (u - 0xD800) * 0x400 + (v - 0xDC00)) :: ·)
        else .error ⟨order.codec, offset, offset + 2, "illegal UTF-16 surrogate"⟩
      | short => .error ⟨order.codec, offset, offset + 2 + short.length, "unexpected end of data"⟩
    else if isLow u then .error ⟨order.codec, offset, offset + 2, "illegal encoding"⟩
    else (decodeFrom order (offset + 2) rest).map (Char.ofNat u :: ·)

/-- Reads data whose byte order a mark gives; without a mark the low byte comes first. -/
def decode : Bytes → Except DecodeFault Text
  | 0xFF :: 0xFE :: rest => decodeFrom .little 2 rest
  | 0xFE :: 0xFF :: rest => decodeFrom .big 2 rest
  | data => decodeFrom .little 0 data

end CueCheck.Utf16
