import CueCheck.Numeral

/-!
Binary floating-point numbers of double precision as exact values: rounding a quotient to the
nearest of them, comparing them, and their interchange bits.
-/

namespace CueCheck

/-- A floating-point number: a signed integer times a power of two, an infinity, or no number. -/
inductive Binary64 where
  | finite (negative : Bool) (mantissa : Nat) (exponent : Int)
  | infinite (negative : Bool)
  | nan
deriving DecidableEq, Repr

/-- A power of two. -/
def twoPow (n : Nat) : Nat := Nat.pow 2 n

/-- A power of ten. -/
def tenPow (n : Nat) : Nat := Nat.pow 10 n

/-- The integer nearest to a quotient; of two that are equally near, the even one. -/
def nearestEven (num den : Nat) : Nat :=
  let q := num / den
  let r := num % den
  if 2 * r < den then q
  else if den < 2 * r then q + 1
  else if q % 2 = 0 then q else q + 1

namespace Binary64

/-- How many bits a mantissa has. -/
def precision : Nat := 53

/-- The exponent of the smallest numbers. -/
def minExponent : Int := -1074

/-- The largest exponent of a finite number. -/
def maxExponent : Int := 971

def zero : Binary64 := .finite false 0 minExponent

/-- The numerator and denominator of `(num / den) / 2 ^ exponent`. -/
def scaled (num den : Nat) (exponent : Int) : Nat × Nat :=
  if 0 ≤ exponent then (num, den * twoPow exponent.toNat)
  else (num * twoPow (-exponent).toNat, den)

/-- The exponent at which a positive quotient has a mantissa of full precision, unless that lies
below the smallest exponent. -/
def quotientExponent (num den : Nat) : Int :=
  let guess : Int := (num.log2 : Int) - den.log2 - precision
  let (n, d) := scaled num den guess
  max minExponent (if n / d < twoPow precision then guess else guess + 1)

/-- The number nearest to a quotient, ties to the even mantissa. -/
def ofQuotient (negative : Bool) (num den : Nat) : Binary64 :=
  if num = 0 then .finite negative 0 minExponent
  else
    let exponent := quotientExponent num den
    let (n, d) := scaled num den exponent
    let mantissa := nearestEven n d
    let (mantissa, exponent) :=
      if mantissa < twoPow precision then (mantissa, exponent)
      else (twoPow (precision - 1), exponent + 1)
    if exponent ≤ maxExponent then .finite negative mantissa exponent else .infinite negative

/-- The number nearest to `mantissa * 10 ^ exponent`. -/
def ofDecimal (negative : Bool) (mantissa : Nat) (exponent : Int) : Binary64 :=
  let magnitude : Int := (Numeral.digits mantissa).length + exponent
  if mantissa = 0 || magnitude < -330 then .finite negative 0 minExponent
  else if 330 < magnitude then .infinite negative
  else if 0 ≤ exponent then ofQuotient negative (mantissa * tenPow exponent.toNat) 1
  else ofQuotient negative mantissa (tenPow (-exponent).toNat)

def ofInt (i : Int) : Binary64 := ofQuotient (i < 0) i.natAbs 1

/-- The quotient of a natural number by a positive number. -/
def divideNat (n : Nat) : Binary64 → Binary64
  | .finite negative mantissa exponent =>
    if 0 ≤ exponent then ofQuotient negative n (mantissa * twoPow exponent.toNat)
    else ofQuotient negative (n * twoPow (-exponent).toNat) mantissa
  | .infinite negative => .finite negative 0 minExponent
  | .nan => .nan

/-- The mantissa with its sign. -/
def signed (negative : Bool) (mantissa : Nat) : Int :=
  if negative then -(mantissa : Int) else mantissa

/-- The order of numbers by value; the two zeros are equal and nothing compares with `nan`. -/
def lt : Binary64 → Binary64 → Bool
  | .nan, _ | _, .nan => false
  | .infinite a, .infinite b => a && !b
  | .infinite a, .finite .. => a
  | .finite .., .infinite b => !b
  | .finite a m e, .finite b n f =>
    let base := min e f
    signed a m * twoPow (e - base).toNat < signed b n * twoPow (f - base).toNat

/-- The sixty-four bits of the interchange format. -/
def toBits : Binary64 → Nat
  | .finite negative mantissa exponent =>
    let lead := twoPow (precision - 1)
    let magnitude :=
      if mantissa < lead then mantissa
      else (exponent - minExponent + 1).toNat * lead + (mantissa - lead)
    if negative then twoPow 63 + magnitude else magnitude
  | .infinite negative =>
    if negative then 0xFFF0000000000000 else 0x7FF0000000000000
  | .nan => 0x7FF8000000000000

example : (ofDecimal false 21 0).toBits = 0x4035000000000000 := by decide +kernel

example : (ofDecimal false 1 (-1)).toBits = 0x3fb999999999999a := by decide +kernel

example : (ofDecimal false 5 (-324)).toBits = 1 := by decide +kernel

example : ofDecimal true 1 400 = .infinite true := by decide +kernel

end Binary64

end CueCheck
