import CueCheck.Block

/-!
Documents: reading a subtitle file, and writing one.
-/

namespace CueCheck

/-- The entries of one source in their order, and the name of the file they came from. -/
structure Document where
  entries : List Entry
  filename : Option Text := none
deriving DecidableEq, Repr

namespace Document

/-- Reads blocks one after another, the first of them at the given position. -/
def readBlocks (position : Nat) : List Text → Except Failure (List Entry)
  | [] => .ok []
  | block :: rest => do
    let e ← Block.read block position
    return e :: (← readBlocks (position + 1) rest)

/-- Reads the content of a subtitle file; each block gives one entry. -/
def parse (content : Text) (filename : Option Text := none) : Except Failure Document := do
  return { entries := ← readBlocks 1 (Block.split content), filename }

def subtitles (d : Document) : List Entry := d.entries.filter (!·.malformed)

def malformed (d : Document) : List Entry := d.entries.filter (·.malformed)

/-- One subtitle as a block: its index, its times and its text. -/
def renderEntry (e : Entry) : Text :=
  Numeral.ofInt e.index ++ '\n' :: e.startText ++ ' ' :: Block.arrow ++ ' ' :: e.stopText ++
    '\n' :: e.text

/-- The content of a subtitle file with the subtitles of a document; malformed blocks are left
out. -/
def render (d : Document) : Text :=
  List.intercalate ['\n', '\n'] (d.subtitles.map renderEntry) ++ ['\n', '\n']

/-- The entry at a position; a negative position counts from the end. -/
def entryAt (d : Document) (position : Int) : Except Failure Entry :=
  let position := if position < 0 then position + d.entries.length else position
  match position with
  | .ofNat n => (d.entries[n]?).elim (.error .noSuchEntry) .ok
  | .negSucc _ => .error .noSuchEntry

/-- Changes the entry at a position; a negative position counts from the end. -/
def modifyAt (d : Document) (position : Int) (change : Entry → Entry) :
    Except Failure Document := do
  let _ ← d.entryAt position
  let position := if position < 0 then position + d.entries.length else position
  return { d with entries := d.entries.modify position.toNat change }

end Document

end CueCheck
