import CueCheck.Binary64

/-!
Numbers in tenths: the exact value of a number rounded to one decimal place.
-/

namespace CueCheck

/-- A number of tenths with a sign, which zero has too. -/
structure Tenths where
  negative : Bool
  count : Nat
deriving DecidableEq, Repr

namespace Tenths

/-- The most digits that a number of tenths may have. -/
def maxDigits : Nat := 28

/-- A quotient in tenths; an exact half is rounded away from zero. -/
def ofQuotient (negative : Bool) (num den : Nat) : Tenths :=
  ⟨negative, (20 * num + den) / (2 * den)⟩

/-- The tenths of a floating-point number, from its exact value. -/
def ofFinite (negative : Bool) (mantissa : Nat) (exponent : Int) : Tenths :=
  let (num, den) := Binary64.scaled mantissa 1 (-exponent)
  ofQuotient negative num den

/-- The digits of a number of tenths, with a point before the last. -/
def text (t : Tenths) : String :=
  (if t.negative then "-" else "") ++ s!"{t.count / 10}.{t.count % 10}"

/-- The text of a number of tenths that fixed-point arithmetic can hold. -/
def text? (t : Tenths) : Except Failure String :=
  if t.count < tenPow maxDigits then .ok t.text else .error .tenthsTooLong

end Tenths

/-- An integer with one decimal place. -/
def oneDecimalInt (i : Int) : Except Failure String :=
  (Tenths.ofQuotient (i < 0) i.natAbs 1).text?

/-- A floating-point number with one decimal place; exact halves are rounded away from zero. -/
def oneDecimal : Binary64 → Except Failure String
  | .finite negative mantissa exponent => (Tenths.ofFinite negative mantissa exponent).text?
  | .infinite _ => .error .tenthsTooLong
  | .nan => .ok "NaN"

example : (Tenths.ofFinite false 29 (-2)).text = "7.3" := by decide +kernel

example : (Tenths.ofFinite true 1 (-6)).text = "-0.0" := by decide +kernel

end CueCheck
