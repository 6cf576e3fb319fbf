import CueCheck.Failure

/-!
The names of character sets: which spellings mean the same one.
-/

namespace CueCheck

/-- What names mean among the character sets of a library. A name may mean none of them, as the
empty one does. -/
structure Registry (κ : Type) where
  lookup? : Text → Except Failure (Option κ)
  lookup?_nil : lookup? [] = .ok none

namespace Registry

variable {κ : Type} {registry : Registry κ} {name : Text} {charset : κ}

/-- The character set that a name means. -/
def lookup (registry : Registry κ) (name : Text) : Except Failure κ := do
  match ← registry.lookup? name with
  | some charset => return charset
  | none => .error (.unknownCharset name)

theorem lookup_eq_ok_iff :
    registry.lookup name = .ok charset ↔ registry.lookup? name = .ok (some charset) := by
  rw [lookup]
  cases registry.lookup? name with
  | error failure => simp [bind, Except.bind]
  | ok charset? => cases charset? <;> simp [bind, Except.bind, pure, Except.pure]

theorem lookup_nil : registry.lookup [] = .error (.unknownCharset []) := by
  rw [lookup, registry.lookup?_nil]
  rfl

theorem ne_nil_of_lookup (h : registry.lookup name = .ok charset) : name ≠ [] := by
  rintro rfl
  rw [lookup_nil] at h
  cases h

end Registry

/-- The character sets that subtitles are read and written in. -/
inductive Charset where
  | utf8
  | utf16
  | latin1
  | windows1252
  | windows1256
deriving DecidableEq, Repr

namespace Charset

/-- The capital letters of ASCII made small. -/
def lowerAscii (c : Char) : Char :=
  if 'A' ≤ c && c ≤ 'Z' then Char.ofNat (c.toNat + 0x20) else c

/-- A letter or digit of ASCII, or a point. -/
def isPlain (c : Char) : Bool := c.isAlphanum || c = '.'

/-- The plain characters of a name in small letters, with one underscore for each run of others
between them; letters and digits outside ASCII are among the others. `gap` says that such a run was
just passed, and `started` that something has been written. -/
def normalizeFrom (gap started : Bool) : Text → Text
  | [] => []
  | c :: rest =>
    if isPlain c then
      (if gap && started then ['_'] else []) ++ lowerAscii c :: normalizeFrom false true rest
    else normalizeFrom true started rest

/-- The plain form of a name, in which spellings are compared. -/
def normalize (name : Text) : Text := normalizeFrom false false name

example : normalize " ISO--8859é1".toList = "iso_8859_1".toList := by decide +kernel

/-- The other plain names of a character set. -/
def aliases : Charset → List String
  | utf8 => ["cp65001", "u8", "utf", "utf8", "utf8_ucs2", "utf8_ucs4"]
  | utf16 => ["u16", "utf16"]
  | latin1 =>
    ["8859", "cp819", "csisolatin1", "ibm819", "iso8859", "iso8859_1", "iso_8859_1",
      "iso_8859_1_1987", "iso_ir_100", "l1", "latin", "latin1"]
  | windows1252 => ["1252", "windows_1252"]
  | windows1256 => ["1256", "windows_1256"]

/-- The plain name of a character set that is no alias. -/
def primaryName : Charset → String
  | utf8 => "utf_8"
  | utf16 => "utf_16"
  | latin1 => "latin_1"
  | windows1252 => "cp1252"
  | windows1256 => "cp1256"

def all : List Charset := [.utf8, .utf16, .latin1, .windows1252, .windows1256]

/-- The character set with a given alias. -/
def ofAlias? (plain : Text) : Option Charset :=
  all.find? fun charset => charset.aliases.any fun name => name.toList == plain

/-- The character set that a plain name means: as an alias, as an alias once points count as
underscores, or as a primary name. -/
def ofPlain? (plain : Text) : Option Charset :=
  (ofAlias? plain).or <|
    (ofAlias? (plain.map fun c => if c = '.' then '_' else c)).or <|
      all.find? fun charset => charset.primaryName.toList == plain

/-- The character set that a name means, if it means one of these. -/
def ofName? (name : Text) : Except Failure (Option Charset) :=
  if name.contains '\x00' then .error .nullInCharsetName else .ok (ofPlain? (normalize name))

/-- The names of these character sets. -/
def registry : Registry Charset := ⟨ofName?, rfl⟩

/-- The character set that a name means. -/
def ofName (name : Text) : Except Failure Charset := registry.lookup name

end Charset

end CueCheck
