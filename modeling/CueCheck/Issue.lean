import CueCheck.Failure

/-!
Issues found in subtitles, and the number of issues of each kind.
-/

namespace CueCheck

/-- The kinds of issues. -/
inductive IssueKind where
  | syntactic
  | overlap
  | shortDuration
  | longDuration
  | lineLength
  | readingSpeed
  | formatting
deriving DecidableEq, Repr

namespace IssueKind

/-- All kinds in the order of reports. -/
def all : List IssueKind :=
  [.syntactic, .overlap, .shortDuration, .longDuration, .lineLength, .readingSpeed, .formatting]

theorem mem_all (kind : IssueKind) : kind ∈ all := by
  cases kind <;> simp [all]

/-- The word for a kind in reports. -/
def name : IssueKind → String
  | syntactic => "syntax"
  | overlap => "overlap"
  | shortDuration => "short_duration"
  | longDuration => "long_duration"
  | lineLength => "cpl"
  | readingSpeed => "cps"
  | formatting => "formatting"

/-- The kind that a word names. -/
def ofName? (word : Text) : Option IssueKind := all.find? fun kind => kind.name.toList == word

/-- The kind that a word names, or the failure that it names none. -/
def ofName (word : Text) : Except Failure IssueKind :=
  match ofName? word with
  | some kind => .ok kind
  | none => .error (.unknownKind word)

/-- How prominently a kind is shown. -/
def severity : IssueKind → String
  | syntactic | overlap | shortDuration => "danger"
  | longDuration | lineLength | readingSpeed => "warning"
  | formatting => "info"

/-- The name of a kind with spaces between its words. -/
def label (kind : IssueKind) : String :=
  String.ofList (kind.name.toList.map fun c => if c = '_' then ' ' else c)

end IssueKind

/-- A finding about one subtitle. -/
structure Issue where
  kind : IssueKind
  message : String
deriving DecidableEq, Repr

/-- How many issues of each kind there are. -/
structure IssueCounts where
  syntactic : Nat := 0
  overlap : Nat := 0
  shortDuration : Nat := 0
  longDuration : Nat := 0
  lineLength : Nat := 0
  readingSpeed : Nat := 0
  formatting : Nat := 0
deriving DecidableEq, Repr

namespace IssueCounts

/-- The number of issues of one kind. -/
def get (counts : IssueCounts) : IssueKind → Nat
  | .syntactic => counts.syntactic
  | .overlap => counts.overlap
  | .shortDuration => counts.shortDuration
  | .longDuration => counts.longDuration
  | .lineLength => counts.lineLength
  | .readingSpeed => counts.readingSpeed
  | .formatting => counts.formatting

/-- Counts one more issue. -/
def add (counts : IssueCounts) : IssueKind → IssueCounts
  | .syntactic => { counts with syntactic := counts.syntactic + 1 }
  | .overlap => { counts with overlap := counts.overlap + 1 }
  | .shortDuration => { counts with shortDuration := counts.shortDuration + 1 }
  | .longDuration => { counts with longDuration := counts.longDuration + 1 }
  | .lineLength => { counts with lineLength := counts.lineLength + 1 }
  | .readingSpeed => { counts with readingSpeed := counts.readingSpeed + 1 }
  | .formatting => { counts with formatting := counts.formatting + 1 }

@[simp] theorem get_add (counts : IssueCounts) (kind other : IssueKind) :
    (counts.add kind).get other = counts.get other + if other = kind then 1 else 0 := by
  cases kind <;> cases other <;> rfl

@[ext] theorem ext_get {a b : IssueCounts} (h : ∀ kind, a.get kind = b.get kind) : a = b := by
  cases a
  cases b
  simp only [mk.injEq]
  exact ⟨h .syntactic, h .overlap, h .shortDuration, h .longDuration, h .lineLength,
    h .readingSpeed, h .formatting⟩

/-- Counts each of a list of kinds once more. -/
def addAll (counts : IssueCounts) (kinds : List IssueKind) : IssueCounts :=
  kinds.foldl add counts

theorem get_addAll (counts : IssueCounts) (kinds : List IssueKind) (kind : IssueKind) :
    (counts.addAll kinds).get kind = counts.get kind + kinds.count kind := by
  induction kinds generalizing counts with
  | nil => simp [addAll]
  | cons k ks ih =>
    have h := ih (counts.add k)
    simp only [addAll, List.foldl_cons] at h ⊢
    rw [h, get_add, List.count_cons]
    by_cases hk : kind = k
    · simp [hk]; omega
    · have hk' : ¬ k = kind := fun e => hk e.symm
      simp [hk, hk']

/-- The number of issues of all kinds. -/
def total (counts : IssueCounts) : Nat :=
  counts.syntactic + counts.overlap + counts.shortDuration + counts.longDuration +
    counts.lineLength + counts.readingSpeed + counts.formatting

/-- Whether there is any issue. -/
def hasIssues (counts : IssueCounts) : Bool := 0 < counts.total

/-- The number of each kind, by name. -/
def table (counts : IssueCounts) : List (String × Nat) :=
  IssueKind.all.map fun kind => (kind.name, counts.get kind)

/-- The number of each kind, in braces. -/
def tableText (counts : IssueCounts) : String :=
  "\x7b" ++ ", ".intercalate (counts.table.map fun (name, n) => s!"'{name}': {n}") ++ "\x7d"

/-- The counts as one line for a reader. -/
def describe (counts : IssueCounts) : String := "IssueCounts(" ++ counts.tableText ++ ")"

end IssueCounts

end CueCheck
