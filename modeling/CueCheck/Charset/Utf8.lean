import CueCheck.Charset.Bytes

/-!
The encoding of text in one to four bytes a character.
-/

namespace CueCheck.Utf8

/-- The bytes of one character. -/
def encodeChar (c : Char) : Bytes :=
  let n := c.toNat
  if n < 0x80 then [UInt8.ofNat n]
  else if n < 0x800 then [UInt8.ofNat (0xC0 + n / 0x40), UInt8.ofNat (0x80 + n % 0x40)]
  else if n < 0x10000 then
    [UInt8.ofNat (0xE0 + n / 0x1000), UInt8.ofNat (0x80 + n / 0x40 % 0x40),
      UInt8.ofNat (0x80 + n % 0x40)]
  else
    [UInt8.ofNat (0xF0 + n / 0x40000), UInt8.ofNat (0x80 + n / 0x1000 % 0x40),
      UInt8.ofNat (0x80 + n / 0x40 % 0x40), UInt8.ofNat (0x80 + n % 0x40)]

def encode (t : Text) : Bytes := t.flatMap encodeChar

/-- Whether a byte may continue a character. -/
def isTail (b : UInt8) : Bool := 0x80 ≤ b && b ≤ 0xBF

/-- Whether a byte may come second after a given first byte: no overlong form, no surrogate, and
nothing above the last code point. -/
def isSecond (lead b : UInt8) : Bool :=
  isTail b && (lead != 0xE0 || 0xA0 ≤ b) && (lead != 0xED || b ≤ 0x9F) &&
    (lead != 0xF0 || 0x90 ≤ b) && (lead != 0xF4 || b ≤ 0x8F)

/-- The payload of a byte that continues a character. -/
def tailBits (b : UInt8) : Nat := b.toNat % 0x40

def badStart (offset : Nat) : DecodeFault :=
  ⟨"utf-8", offset, offset + 1, "invalid start byte"⟩

def badTail (offset good : Nat) : DecodeFault :=
  ⟨"utf-8", offset, offset + good, "invalid continuation byte"⟩

def cutOff (offset left : Nat) : DecodeFault :=
  ⟨"utf-8", offset, offset + left, "unexpected end of data"⟩

/-- Reads bytes as text; the offset is that of the first byte in the whole data. -/
def decodeFrom (offset : Nat) : Bytes → Except DecodeFault Text
  | [] => .ok []
  | a :: rest =>
    if a < 0x80 then (decodeFrom (offset + 1) rest).map (Char.ofNat a.toNat :: ·)
    else if a < 0xC2 || 0xF4 < a then .error (badStart offset)
    else
      match rest with
      | [] => .error (cutOff offset 1)
      | b :: rest =>
        if !isSecond a b then .error (badTail offset 1)
        else if a < 0xE0 then
          (decodeFrom (offset + 2) rest).map
            (Char.ofNat (a.toNat % 0x20 * 0x40 + tailBits b) :: ·)
        else
          match rest with
          | [] => .error (cutOff offset 2)
          | c :: rest =>
            if !isTail c then .error (badTail offset 2)
            else if a < 0xF0 then
              (decodeFrom (offset + 3) rest).map
                (Char.ofNat (a.toNat % 0x10 * 0x1000 + tailBits b * 0x40 + tailBits c) :: ·)
            else
              match rest with
              | [] => .error (cutOff offset 3)
              | d :: rest =>
                if !isTail d then .error (badTail offset 3)
                else
                  (decodeFrom (offset + 4) rest).map
                    (Char.ofNat (a.toNat % 8 * 0x40000 + tailBits b * 0x1000 +
                      tailBits c * 0x40 + tailBits d) :: ·)

def decode (data : Bytes) : Except DecodeFault Text := decodeFrom 0 data

end CueCheck.Utf8
