/-!
Text as a sequence of code points: blank characters, trimming, and lines.
-/

namespace CueCheck

/-- A text; lengths and positions count code points. -/
abbrev Text := List Char

namespace Text

/-- A character that separates words or lines without showing: controls, spaces and separators. -/
def isBlank (c : Char) : Bool :=
  let n := c.toNat
  (0x09 ≤ n && n ≤ 0x0D) || (0x1C ≤ n && n ≤ 0x20) || n == 0x85 || n == 0xA0 || n == 0x1680 ||
    (0x2000 ≤ n && n ≤ 0x200A) || n == 0x2028 || n == 0x2029 || n == 0x202F || n == 0x205F ||
    n == 0x3000

@[simp] theorem isBlank_newline : isBlank '\n' = true := by decide

theorem isBlank_of_isWhitespace {c : Char} (h : c.isWhitespace = true) : isBlank c = true := by
  simp only [Char.isWhitespace, Bool.or_eq_true, decide_eq_true_eq] at h
  rcases h with ((rfl | rfl) | rfl) | rfl <;> decide

/-- The text without its leading blanks. -/
def trimStart (t : Text) : Text := t.dropWhile isBlank

/-- The text without its trailing blanks. -/
def trimEnd (t : Text) : Text := (t.reverse.dropWhile isBlank).reverse

/-- The text without blanks at either end. -/
def trim (t : Text) : Text := trimEnd (trimStart t)

/-- A line is blank when it holds blank characters only. -/
def isBlankLine (line : Text) : Bool := line.all isBlank

/-- Puts a character in front of the first line. -/
def consLine (c : Char) : List Text → List Text
  | [] => [[c]]
  | line :: rest => (c :: line) :: rest

/-- The lines of a text, which newlines separate; the empty text has one empty line. -/
def lines : Text → List Text
  | [] => [[]]
  | c :: rest => if c = '\n' then [] :: lines rest else consLine c (lines rest)

theorem consLine_ne_nil (c : Char) (ls : List Text) : consLine c ls ≠ [] := by
  cases ls <;> simp [consLine]

theorem lines_ne_nil (t : Text) : lines t ≠ [] := by
  cases t with
  | nil => simp [lines]
  | cons c rest =>
    simp only [lines]
    split
    · simp
    · exact consLine_ne_nil c _

/-- Lines put back together with newlines between them. -/
def unlines (ls : List Text) : Text := List.intercalate ['\n'] ls

/-- The text with every occurrence of one character removed. -/
def without (c : Char) (t : Text) : Text := t.filter (· != c)

/-- The first result that a reader gives on the text or on a later suffix of it. -/
def search {α : Type} (read? : Text → Option α) : Text → Option α
  | [] => read? []
  | c :: rest => (read? (c :: rest)).or (search read? rest)

/-- The text after a given opening, if it starts with it. -/
def after? : Text → Text → Option Text
  | [], t => some t
  | _ :: _, [] => none
  | p :: ps, c :: cs => if p = c then after? ps cs else none

@[simp] theorem after?_append (p t : Text) : after? p (p ++ t) = some t := by
  induction p with
  | nil => rfl
  | cons c p ih => simp [after?, ih]

theorem eq_append_of_after? {p t r : Text} (h : after? p t = some r) : t = p ++ r := by
  induction p generalizing t with
  | nil => simpa [after?] using h
  | cons c p ih =>
    cases t with
    | nil => simp [after?] at h
    | cons d t =>
      simp only [after?] at h
      split at h
      · next hcd => subst hcd; simp [ih h]
      · simp at h

end Text

end CueCheck
