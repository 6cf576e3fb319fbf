import CueCheck.Text.Blank

/-!
Hexadecimal digits of a fixed width.
-/

namespace CueCheck.Text.Hex

/-- The hexadecimal digits in order, with small letters. -/
def smallDigits : Text :=
  ['0', '1', '2', '3', '4', '5', '6', '7', '8', '9', 'a', 'b', 'c', 'd', 'e', 'f']

/-- The hexadecimal digits in order, with capital letters. -/
def capitalDigits : Text :=
  ['0', '1', '2', '3', '4', '5', '6', '7', '8', '9', 'A', 'B', 'C', 'D', 'E', 'F']

/-- The last `width` hexadecimal digits of a number, written with the given sixteen digits. -/
def fixed (digits : Text) : (width : Nat) → Nat → Text
  | 0, _ => []
  | width + 1, n => fixed digits width (n / 16) ++ [digits.getD (n % 16) '0']

@[simp] theorem length_fixed (digits : Text) (width n : Nat) :
    (fixed digits width n).length = width := by
  induction width generalizing n with
  | zero => rfl
  | succ width ih => simp [fixed, ih]

/-- The value of a hexadecimal digit of either case. -/
def value? (c : Char) : Option Nat :=
  let n := c.toNat
  if 0x30 ≤ n && n ≤ 0x39 then some (n - 0x30)
  else if 0x41 ≤ n && n ≤ 0x46 then some (n - 0x37)
  else if 0x61 ≤ n && n ≤ 0x66 then some (n - 0x57)
  else none

theorem value?_smallDigits (n : Nat) (h : n < 16) :
    value? (smallDigits.getD n '0') = some n := by
  have all : ∀ k : Fin 16, value? (smallDigits.getD k '0') = some k.val := by decide
  exact all ⟨n, h⟩

theorem value?_capitalDigits (n : Nat) (h : n < 16) :
    value? (capitalDigits.getD n '0') = some n := by
  have all : ∀ k : Fin 16, value? (capitalDigits.getD k '0') = some k.val := by decide
  exact all ⟨n, h⟩

end CueCheck.Text.Hex
