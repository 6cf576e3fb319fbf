import CueCheck.Json.Reader
import CueCheck.Problem
import CueCheck.Settings

/-!
Reading the value of a setting from text.
-/

namespace CueCheck.Settings

/-- The spaces that may stand around a number. -/
def isOuterSpace (c : Char) : Bool := Text.isBlank c && !(0x1C ≤ c.toNat && c.toNat ≤ 0x1F)

def trimOuter (t : Text) : Text :=
  ((t.dropWhile isOuterSpace).reverse.dropWhile isOuterSpace).reverse

/-- The text without its underscores, if it has some and each of them stands alone between other
characters. -/
def withoutUnderscores? (t : Text) : Option Text :=
  let alone := (t.zip (t.drop 1)).all fun (a, b) => !(a == '_' && b == '_')
  if t.contains '_' && t.head? != some '_' && t.getLast? != some '_' && alone then
    some (t.without '_')
  else none

/-- An integer in digits, with a minus sign at most and without leading zeros. -/
def plainInt? (t : Text) : Option Int :=
  let magnitude (ds : Text) : Option Nat :=
    if ds.isEmpty || !ds.all Numeral.isDigit then none
    else if ds.head? = some '0' && ds.length != 1 then none
    else some (Numeral.value ds)
  match t with
  | '-' :: ds => (magnitude ds).map fun n => -(n : Int)
  | ds => (magnitude ds).map fun n => (n : Int)

/-- A numeral without the zeros and underscores in front of its first other digit; of zeros alone
the last remains, and so does the zero in front of a point. -/
def withoutLeadingZeros? : Text → Option Text
  | '0' :: rest =>
    match rest.dropWhile fun c => c == '0' || c == '_' with
    | [] => some [((rest.getLast?).getD '0')]
    | '.' :: places =>
      let lead := (rest.takeWhile fun c => c == '0' || c == '_').getLast?
      some (lead.getD '0' :: '.' :: places)
    | c :: later => if Numeral.isDigit c then some (c :: later) else none
  | c :: rest => if Numeral.isDigit c || c = '-' then some (c :: rest) else none
  | [] => none

/-- A numeral without a point that zeros alone follow. -/
def withoutZeroPlaces (t : Text) : Text :=
  match t.dropWhile (· != '.') with
  | '.' :: places => if places.all (· == '0') then t.takeWhile (· != '.') else t
  | _ => t

/-- An integer as people write it: spaces around it, a plus sign, leading zeros, zeros after a
point, and single underscores between digits are all allowed. -/
def looseInt? (t : Text) : Option Int := do
  let t := trimOuter t
  let t ← match t with
    | '+' :: '-' :: _ => none
    | '+' :: t => some t
    | t => some t
  let t := withoutZeroPlaces (← withoutLeadingZeros? t)
  plainInt? ((withoutUnderscores? t).getD t)

/-- The integer that a text stands for. -/
def readInt (t : Text) : Except ProblemKind Int :=
  match (plainInt? t).or (looseInt? t) with
  | some i => if maxNumeralDigits < (Numeral.digits i.natAbs).length then .error .intTooLong else .ok i
  | none => .error .unreadableInt

/-- The names of numbers that are not finite. -/
def specialNumber? (negative : Bool) (word : Text) : Option Binary64 :=
  let word := String.ofList (word.map Char.toLower)
  if word = "inf" || word = "infinity" then some (.infinite negative)
  else if word = "nan" then some .nan
  else none

/-- A number in decimal digits with an optional point and exponent, without its sign; digits may
be missing on one side of the point. -/
def decimalNumber? (negative : Bool) (t : Text) : Option Binary64 := do
  let whole := t.takeWhile Numeral.isDigit
  let t := t.dropWhile Numeral.isDigit
  let (places, t) := match t with
    | '.' :: t => (t.takeWhile Numeral.isDigit, t.dropWhile Numeral.isDigit)
    | t => ([], t)
  guard !(whole.isEmpty && places.isEmpty)
  let power ← match t with
    | [] => some 0
    | t => match Json.exponent t with
      | some (power, []) => some power
      | _ => none
  return .ofDecimal negative (Numeral.value (whole ++ places)) (power - places.length)

/-- The number that a text stands for, with an optional sign. -/
def strictNumber? (t : Text) : Option Binary64 :=
  let (negative, t) := match t with
    | '-' :: t => (true, t)
    | '+' :: t => (false, t)
    | t => (false, t)
  (specialNumber? negative t).or (decimalNumber? negative t)

/-- The number that a text stands for; spaces around it, or single underscores inside it, are
allowed. -/
def readNumber (t : Text) : Except ProblemKind Binary64 :=
  match (strictNumber? (trimOuter t)).or ((withoutUnderscores? t).bind strictNumber?) with
  | some x => .ok x
  | none => .error .unreadableNumber

def readBool (t : Text) : Except ProblemKind Bool :=
  match readBool? t with
  | some b => .ok b
  | none => .error .unreadableBool

/-- The items of a list of strings, and the places of items that are no strings. -/
def readItems (place : Nat) : List Json → List Text × List Nat
  | [] => ([], [])
  | item :: rest =>
    let (texts, wrong) := readItems (place + 1) rest
    match item with
    | .str t => (t :: texts, wrong)
    | _ => (texts, place :: wrong)

/-- The list of strings that a value is, or what is wrong with it under a given name. -/
def readTexts (name : String) : Json → Except (List Problem) (List Text)
  | .arr items =>
    match readItems 0 items with
    | (texts, []) => .ok texts
    | (_, wrong) => .error (wrong.map fun place => ⟨.notString, [.field name, .item place]⟩)
  | _ => .error [⟨.notList, [.field name]⟩]

end CueCheck.Settings
