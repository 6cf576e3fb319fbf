import CueCheck.Proofs.DocumentReading
import Mathlib.Data.List.TakeWhile

/-!
Reading tolerates all that a block may hold but an index of too many digits: without one, each block
gives one entry, which keeps it, and a malformed entry says where it stands and what is wrong.
-/

namespace CueCheck

open Text

namespace Block

/-- The lines of a block that are not blank. -/
def shownLines (block : Text) : List Text := block.lines.filter (!isBlankLine ·)

/-- The digits that the index of a block is read from. -/
def number (block : Text) : Text := ((shownLines block).head?.map indexDigits).getD []

/-- The block has a second line, and times in the first line with an arrow. -/
structure IsTimed (block : Text) : Prop where
  two_lines : 2 ≤ (shownLines block).length
  timed : ∃ line ∈ (shownLines block).find? hasArrow, (times? line).isSome = true

/-- The block has the times of a subtitle, and an index of more digits than a numeral may have. -/
structure IsOverlong (block : Text) : Prop extends IsTimed block where
  too_long : maxNumeralDigits < (number block).length

variable {block : Text} {position : Int}

/-- A block without times is malformed; with times it is a subtitle if its index can be read. -/
theorem read_eq (block : Text) (position : Int) :
    (¬ IsTimed block ∧
        ∃ f : Fault, read block position = .ok (.ofMalformed position block f.message)) ∨
      IsTimed block ∧ ∃ first times text, number block = indexDigits first ∧
        read block position = subtitle block first position times text := by
  rw [read]
  split
  · next first second rest hshown =>
    have hlines : shownLines block = first :: second :: rest := hshown
    have hfind : (shownLines block).find? hasArrow =
        ((first :: second :: rest).dropWhile (!hasArrow ·)).head? := by
      rw [hlines, List.find?_eq_head?_dropWhile_not]
    split
    · next hnone =>
      refine .inl ⟨fun h => ?_, _, rfl⟩
      obtain ⟨line, hline, -⟩ := h.timed
      rw [hfind, hnone] at hline
      cases hline
    · next timeLine text hsome =>
      rw [hsome] at hfind
      split
      · next hnone =>
        refine .inl ⟨fun h => ?_, _, rfl⟩
        obtain ⟨line, hline, htimes⟩ := h.timed
        rw [hfind] at hline
        injection hline with hline
        rw [← hline, hnone] at htimes
        cases htimes
      · next times htimes =>
        have htimed : IsTimed block :=
          ⟨by simp [hlines], timeLine, hfind, by simp [htimes]⟩
        have hnumber : number block = indexDigits first := by
          rw [number, hlines]
          rfl
        exact .inr ⟨htimed, first, times, text, hnumber, rfl⟩
  · next hfew =>
    refine .inl ⟨fun h => ?_, _, rfl⟩
    have htwo := h.two_lines
    cases hlines : shownLines block with
    | nil => simp [hlines] at htwo
    | cons first more =>
      cases more with
      | nil => simp [hlines] at htwo
      | cons second rest => exact hfew first second rest hlines

theorem readIndex_of_long {line : Text} (h : maxNumeralDigits < (indexDigits line).length)
    (position : Int) :
    readIndex line position = .error (.numeralTooLong (indexDigits line).length) := by
  rw [readIndex]
  split
  · next hnil =>
    rw [hnil] at h
    cases h
  · rw [Numeral.read, if_neg (by omega)]
    rfl

/-- An index is the number of its digits; without any, or with zero, it is the position. -/
theorem readIndex_eq_ok {line : Text} (h : (indexDigits line).length ≤ maxNumeralDigits)
    (position : Int) :
    readIndex line position = .ok (
      if 0 < Numeral.value (indexDigits line) then (Numeral.value (indexDigits line) : Int)
      else position) := by
  rw [readIndex]
  split
  · next hnil =>
    rw [hnil]
    rfl
  · rw [Numeral.read, if_pos h]
    rfl

theorem read_of_isOverlong (h : IsOverlong block) (position : Int) :
    read block position = .error (.numeralTooLong (number block).length) := by
  rcases read_eq block position with ⟨hnot, -⟩ | ⟨-, first, times, text, hnumber, hread⟩
  · exact absurd h.toIsTimed hnot
  · have hlong := h.too_long
    rw [hnumber] at hlong
    rw [hread, subtitle, readIndex_of_long hlong, hnumber]
    rfl

theorem exists_read_of_not_isOverlong (h : ¬ IsOverlong block) (position : Int) :
    ∃ e, read block position = .ok e := by
  rcases read_eq block position with ⟨-, f, hread⟩ | ⟨htimed, first, times, text, hnumber, hread⟩
  · exact ⟨_, hread⟩
  · have hshort : ¬ maxNumeralDigits < (indexDigits first).length := by
      intro hlong
      exact h ⟨htimed, hnumber ▸ hlong⟩
    rw [hread, subtitle, readIndex_eq_ok (Nat.not_lt.1 hshort)]
    exact ⟨_, rfl⟩

theorem not_isOverlong_of_read {e : Entry} (h : read block position = .ok e) :
    ¬ IsOverlong block := by
  intro hlong
  rw [read_of_isOverlong hlong] at h
  cases h

/-- The entry of a block keeps the block, and a malformed one has the position of the block and one
issue. -/
theorem kept_of_read {e : Entry} (h : read block position = .ok e) :
    e.raw = block ∧
      (e.malformed = true →
        e.index = position ∧ ∃ message, e.issues = [⟨.syntactic, message⟩]) := by
  rcases read_cases h with ⟨f, rfl⟩ | ⟨first, timeLine, text, times, -, -, hs⟩
  · exact ⟨rfl, fun _ => ⟨rfl, f.message, rfl⟩⟩
  · rw [subtitle] at hs
    obtain ⟨index, -, hs⟩ := exists_of_bind_eq_ok hs
    injection hs with hs
    subst hs
    exact ⟨rfl, fun hm => by cases hm⟩

/-- A text of lines that all show is one block. -/
theorem split_of_shown {t : Text} (hs : StartsVisible t) (he : EndsVisible t) (hr : '\r' ∉ t)
    (hl : ∀ line ∈ lines t, isBlankLine line = false) : split t = [t] := by
  have htrim : t.trim = t := by
    rw [trim, hs.trimStart_eq, he.trimEnd_eq]
  have hwithout : t.without '\r' = t := by
    apply List.filter_eq_self.2
    intro c hc
    simpa using fun hcr : c = '\r' => hr (hcr ▸ hc)
  rw [split_eq_paragraphs, htrim, hwithout, paragraphs_of_shown (lines_ne_nil t) hl,
    List.map_singleton, unlines_lines]

end Block

namespace Document

/-- Each block has its entry, in order; a malformed entry says where it stands and has one issue. -/
structure Covers (d : Document) (blocks : List Text) : Prop where
  raw : d.entries.map (·.raw) = blocks
  malformed : ∀ (i : Nat) (e : Entry), d.entries[i]? = some e → e.malformed = true →
    e.index = i + 1 ∧ ∃ message, e.issues = [⟨.syntactic, message⟩]

variable {blocks : List Text} {position : Nat} {entries : List Entry}

theorem readBlocks_cons_eq_ok {block : Text}
    (h : readBlocks position (block :: blocks) = .ok entries) :
    ∃ first rest, Block.read block position = .ok first ∧
      readBlocks (position + 1) blocks = .ok rest ∧ entries = first :: rest := by
  rw [readBlocks] at h
  obtain ⟨first, hfirst, h⟩ := exists_of_bind_eq_ok h
  obtain ⟨rest, hrest, h⟩ := exists_of_bind_eq_ok h
  injection h with h
  exact ⟨first, rest, hfirst, hrest, h.symm⟩

/-- Blocks are read, unless one of them has an overlong index. -/
theorem exists_readBlocks_iff (position : Nat) (blocks : List Text) :
    (∃ entries, readBlocks position blocks = .ok entries) ↔
      ∀ block ∈ blocks, ¬ Block.IsOverlong block := by
  induction blocks generalizing position with
  | nil => exact ⟨fun _ block hblock => absurd hblock List.not_mem_nil, fun _ => ⟨[], rfl⟩⟩
  | cons block blocks ih =>
    rw [List.forall_mem_cons, ← ih (position + 1)]
    constructor
    · rintro ⟨entries, h⟩
      obtain ⟨first, rest, hfirst, hrest, -⟩ := readBlocks_cons_eq_ok h
      exact ⟨Block.not_isOverlong_of_read hfirst, rest, hrest⟩
    · rintro ⟨hshort, rest, hrest⟩
      obtain ⟨first, hfirst⟩ := Block.exists_read_of_not_isOverlong hshort position
      rw [readBlocks, hfirst, hrest]
      exact ⟨first :: rest, rfl⟩

theorem raw_of_readBlocks (h : readBlocks position blocks = .ok entries) :
    entries.map (·.raw) = blocks := by
  induction blocks generalizing position entries with
  | nil =>
    injection h with h
    rw [← h]
    rfl
  | cons block blocks ih =>
    obtain ⟨first, rest, hfirst, hrest, rfl⟩ := readBlocks_cons_eq_ok h
    rw [List.map_cons, ih hrest, (Block.kept_of_read hfirst).1]

theorem malformed_of_readBlocks (h : readBlocks position blocks = .ok entries) {i : Nat}
    {e : Entry} (he : entries[i]? = some e) (hm : e.malformed = true) :
    e.index = (position + i : Nat) ∧ ∃ message, e.issues = [⟨.syntactic, message⟩] := by
  induction blocks generalizing position entries i with
  | nil =>
    injection h with h
    rw [← h] at he
    cases he
  | cons block blocks ih =>
    obtain ⟨first, rest, hfirst, hrest, rfl⟩ := readBlocks_cons_eq_ok h
    cases i with
    | zero =>
      injection he with he
      subst he
      exact (Block.kept_of_read hfirst).2 hm
    | succ i =>
      have hlater := ih hrest he
      rwa [Nat.add_right_comm] at hlater

theorem covers_of_parse {content : Text} {filename : Option Text} {d : Document}
    (h : parse content filename = .ok d) : d.Covers (Block.split content) := by
  obtain ⟨hread, -⟩ := readBlocks_of_parse h
  refine ⟨raw_of_readBlocks hread, fun i e he hm => ?_⟩
  obtain ⟨hindex, hissues⟩ := malformed_of_readBlocks hread he hm
  exact ⟨by omega, hissues⟩

/-- A content is read with one entry for each of its blocks exactly when no block has the times of a
subtitle and an index of more digits than a numeral may have. -/
theorem parse_covers_iff (content : Text) (filename : Option Text) :
    (∃ d, parse content filename = .ok d ∧ d.filename = filename ∧
        d.Covers (Block.split content)) ↔
      ∀ block ∈ Block.split content, ¬ Block.IsOverlong block := by
  rw [← exists_readBlocks_iff 1]
  constructor
  · rintro ⟨d, hparse, -⟩
    exact ⟨d.entries, (readBlocks_of_parse hparse).1⟩
  · rintro ⟨entries, hentries⟩
    have hparse := parse_eq_of_readBlocks hentries filename
    exact ⟨_, hparse, rfl, covers_of_parse hparse⟩

/-- The content with one subtitle, whose index is written with the given digits. -/
def numbered (digits : Text) : Text :=
  digits ++ '\n' :: "00:00:01,000 --> 00:00:02,000\nHi".toList

section Numbered

variable {digits : Text}

theorem lines_numbered (hd : ∀ c ∈ digits, Numeral.isDigit c = true) :
    lines (numbered digits) =
      [digits, "00:00:01,000 --> 00:00:02,000".toList, "Hi".toList] := by
  have hn : '\n' ∉ digits := fun hc => absurd (hd _ hc) (by decide)
  rw [numbered, lines_append, lines_of_not_mem hn]
  rfl

theorem shown_numbered (hd : ∀ c ∈ digits, Numeral.isDigit c = true) (hne : digits ≠ []) :
    ∀ line ∈ lines (numbered digits), isBlankLine line = false := by
  obtain ⟨c, hc⟩ := List.exists_mem_of_ne_nil _ hne
  have hdigits : isBlankLine digits = false :=
    isBlankLine_eq_false_iff.2 ⟨c, hc, Numeral.not_isBlank_of_isDigit (hd c hc)⟩
  rw [lines_numbered hd, List.forall_mem_cons]
  exact ⟨hdigits, by decide⟩

theorem split_numbered (hd : ∀ c ∈ digits, Numeral.isDigit c = true) (hne : digits ≠ []) :
    Block.split (numbered digits) = [numbered digits] := by
  have hstart : StartsVisible digits :=
    startsVisible_of_forall fun c hc => Numeral.not_isBlank_of_isDigit (hd c hc)
  have hend : EndsVisible ('\n' :: "00:00:01,000 --> 00:00:02,000\nHi".toList) := by
    intro c hc
    cases hc
    decide
  have hr : '\r' ∉ numbered digits := by
    intro hc
    rcases List.mem_append.1 hc with hc | hc
    · exact absurd (hd _ hc) (by decide)
    · exact absurd hc (by decide)
  exact Block.split_of_shown (hstart.append hne _) (hend.append (List.cons_ne_nil _ _) _) hr
    (shown_numbered hd hne)

theorem shownLines_numbered (hd : ∀ c ∈ digits, Numeral.isDigit c = true) (hne : digits ≠ []) :
    Block.shownLines (numbered digits) =
      [digits, "00:00:01,000 --> 00:00:02,000".toList, "Hi".toList] := by
  rw [Block.shownLines, List.filter_eq_self.2, lines_numbered hd]
  intro line hline
  rw [shown_numbered hd hne line hline]
  rfl

theorem number_numbered (hd : ∀ c ∈ digits, Numeral.isDigit c = true) (hne : digits ≠ []) :
    Block.number (numbered digits) = digits := by
  rw [Block.number, shownLines_numbered hd hne, List.head?_cons, Option.map_some,
    Option.getD_some, Block.indexDigits_of_digits hd]

theorem isOverlong_numbered (hd : ∀ c ∈ digits, Numeral.isDigit c = true)
    (hlong : maxNumeralDigits < digits.length) : Block.IsOverlong (numbered digits) := by
  have hne : digits ≠ [] := List.ne_nil_of_length_pos (by omega)
  have hlines := shownLines_numbered hd hne
  have harrow : Block.hasArrow digits = false :=
    Block.hasArrow_of_not_mem fun hc => absurd (hd _ hc) (by decide)
  refine ⟨⟨by simp [hlines], "00:00:01,000 --> 00:00:02,000".toList, ?_, by decide⟩, ?_⟩
  · rw [hlines, List.find?_cons_of_neg (by simp [harrow])]
    decide
  · rwa [number_numbered hd hne]

theorem parse_numbered (hd : ∀ c ∈ digits, Numeral.isDigit c = true)
    (hlong : maxNumeralDigits < digits.length) (filename : Option Text) :
    parse (numbered digits) filename = .error (.numeralTooLong digits.length) := by
  have hne : digits ≠ [] := List.ne_nil_of_length_pos (by omega)
  rw [parse, split_numbered hd hne, readBlocks,
    Block.read_of_isOverlong (isOverlong_numbered hd hlong), number_numbered hd hne]
  rfl

end Numbered

/-- One digit too many in front of a proper time line. -/
theorem parse_numbered_ones :
    parse (numbered (List.replicate 4301 '1')) none = .error (.numeralTooLong 4301) ∧
      ¬ ∃ d, parse (numbered (List.replicate 4301 '1')) none = .ok d ∧
        d.Covers (Block.split (numbered (List.replicate 4301 '1'))) := by
  have hd : ∀ c ∈ List.replicate 4301 '1', Numeral.isDigit c = true := by
    intro c hc
    rw [List.eq_of_mem_replicate hc]
    decide
  have hlength : (List.replicate 4301 '1').length = 4301 := List.length_replicate
  have hparse := parse_numbered hd (by rw [hlength]; decide) none
  rw [hlength] at hparse
  refine ⟨hparse, ?_⟩
  rintro ⟨d, hd, -⟩
  rw [hparse] at hd
  cases hd

end Document

end CueCheck
