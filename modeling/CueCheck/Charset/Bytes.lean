import CueCheck.Text.Hex

/-!
Byte strings, and what stops a decoder.
-/

namespace CueCheck

abbrev Bytes := List UInt8

/-- Bytes that are no text in an encoding: where they start and stop, and what is wrong. -/
structure DecodeFault where
  codec : String
  start : Nat
  stop : Nat
  reason : String
deriving DecidableEq, Repr

/-- The fault in words, for the log. -/
def DecodeFault.describe (fault : DecodeFault) (data : Bytes) : String :=
  let place :=
    if fault.stop = fault.start + 1 then
      let byte := Text.Hex.fixed Text.Hex.smallDigits 2 (data.getD fault.start 0).toNat
      s!"byte 0x{String.ofList byte} in position {fault.start}"
    else s!"bytes in position {fault.start}-{fault.stop - 1}"
  s!"'{fault.codec}' codec can't decode {place}: {fault.reason}"

end CueCheck
