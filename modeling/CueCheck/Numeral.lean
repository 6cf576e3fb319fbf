import CueCheck.Failure

/-!
Decimal numerals: the digits of a number, padding with zeros, and reading digits back.
-/

namespace CueCheck.Numeral

/-- The ten decimal digits. -/
def isDigit (c : Char) : Bool := '0' ≤ c && c ≤ '9'

/-- The value of a decimal digit. -/
def digitValue (c : Char) : Nat := c.toNat - '0'.toNat

/-- The number that a run of digits stands for. -/
def value (digits : Text) : Nat := digits.foldl (fun n c => 10 * n + digitValue c) 0

@[simp] theorem value_nil : value [] = 0 := rfl

theorem value_append_singleton (digits : Text) (c : Char) :
    value (digits ++ [c]) = 10 * value digits + digitValue c := by
  simp [value]

/-- The decimal digits of a number, without leading zeros. -/
def digits (n : Nat) : Text := Nat.toDigits 10 n

/-- The decimal digits of a number, with zeros in front up to a given width. -/
def padded (width n : Nat) : Text :=
  List.replicate (width - (digits n).length) '0' ++ digits n

theorem length_padded (width n : Nat) :
    (padded width n).length = max width (digits n).length := by
  simp [padded]
  omega

/-- Reads a run of digits, unless it is longer than a numeral may be. -/
def read (text : Text) : Except Failure Nat :=
  if text.length ≤ maxNumeralDigits then .ok (value text)
  else .error (.numeralTooLong text.length)

/-- The decimal form of an integer. -/
def ofInt (i : Int) : Text :=
  if i < 0 then '-' :: digits i.natAbs else digits i.natAbs

/-- The digits of a number in groups of three, which commas separate. -/
def grouped (n : Nat) : Text :=
  (groupsFromEnd (digits n).reverse).reverse
where
  /-- Puts a comma after every third digit that another digit follows. -/
  groupsFromEnd : Text → Text
    | a :: b :: c :: d :: rest => a :: b :: c :: ',' :: groupsFromEnd (d :: rest)
    | short => short

/-- The digits of an integer in groups of three, which commas separate. -/
def groupedInt (i : Int) : Text :=
  if i < 0 then '-' :: grouped i.natAbs else grouped i.natAbs

example : grouped 5242880 = "5,242,880".toList ∧ grouped 100 = "100".toList := by decide

end CueCheck.Numeral
