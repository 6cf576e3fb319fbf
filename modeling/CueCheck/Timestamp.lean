import CueCheck.Numeral

/-!
Timestamps: offsets in milliseconds written as hours, minutes, seconds and milliseconds.
-/

namespace CueCheck

/-- An offset from the start in hours, minutes, seconds and milliseconds. -/
structure Clock where
  hours : Nat
  minutes : Nat
  seconds : Nat
  millis : Nat
deriving DecidableEq, Repr

namespace Clock

/-- The offset in milliseconds. -/
def total (c : Clock) : Nat :=
  ((c.hours * 60 + c.minutes) * 60 + c.seconds) * 1000 + c.millis

/-- The clock of an offset in milliseconds; hours have no upper bound. -/
def ofMillis (n : Nat) : Clock :=
  ⟨n / 3600000, n / 60000 % 60, n / 1000 % 60, n % 1000⟩

@[simp] theorem total_ofMillis (n : Nat) : (ofMillis n).total = n := by
  simp only [total, ofMillis]
  omega

/-- The written clock; hours take two digits or more. -/
def text (c : Clock) : Text :=
  Numeral.padded 2 c.hours ++ ':' :: Numeral.padded 2 c.minutes ++ ':' ::
    Numeral.padded 2 c.seconds ++ ',' :: Numeral.padded 3 c.millis

end Clock

namespace Timestamp

/-- A given number of digits at the front of a text, and what follows them. -/
def takeDigits? : Nat → Text → Option (Text × Text)
  | 0, t => some ([], t)
  | _ + 1, [] => none
  | n + 1, c :: t =>
    if Numeral.isDigit c then (takeDigits? n t).map fun (ds, rest) => (c :: ds, rest) else none

/-- Minutes, seconds and milliseconds at the front of a text, after the colon that ends the hours;
the hours are supplied. -/
def afterHours? (hours : Nat) (t : Text) : Option (Clock × Text) := do
  let t ← Text.after? [':'] t
  let (minutes, t) ← takeDigits? 2 t
  let t ← Text.after? [':'] t
  let (seconds, t) ← takeDigits? 2 t
  let t ← Text.after? [','] t
  let (millis, t) ← takeDigits? 3 t
  return (⟨hours, Numeral.value minutes, Numeral.value seconds, Numeral.value millis⟩, t)

/-- A timestamp with an hour field of exactly two digits at the front of a text. -/
def narrow? (t : Text) : Option (Clock × Text) := do
  let (hours, t) ← takeDigits? 2 t
  afterHours? (Numeral.value hours) t

/-- A timestamp at the front of a text whose hour field is the whole run of digits there: the
digits of the hours, and the clock with its hours left at zero. -/
def wide? (t : Text) : Option (Text × Clock) := do
  let hours := t.takeWhile Numeral.isDigit
  guard (2 ≤ hours.length)
  let (clock, _) ← afterHours? 0 (t.dropWhile Numeral.isDigit)
  return (hours, clock)

/-- The milliseconds of the first timestamp in a text, and zero where there is none. -/
def parse (t : Text) : Except Failure Nat :=
  match Text.search wide? t with
  | none => .ok 0
  | some (hours, clock) => do return { clock with hours := ← Numeral.read hours }.total

/-- The timestamp of an offset in milliseconds; an offset before the start counts as zero. -/
def format (millis : Int) : Text := (Clock.ofMillis millis.toNat).text

example : format 3661001 = "01:01:01,001".toList := by decide

example : format (-5) = "00:00:00,000".toList := by decide

end Timestamp

end CueCheck
