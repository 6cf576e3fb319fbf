import CueCheck.Proofs.Digits
import CueCheck.Proofs.Paragraphs
import CueCheck.Proofs.Results

/-!
Reading blocks: the block of a subtitle gives the subtitle back, and what any block gives is within
the bounds of its fields.
-/

namespace CueCheck

namespace Text

theorem search_of_some {α : Type} {read? : Text → Option α} {t : Text} {a : α}
    (h : read? t = some a) : search read? t = some a := by
  cases t with
  | nil => exact h
  | cons c t => rw [search, h, Option.some_or]

theorem search_eq_none_iff {α : Type} {read? : Text → Option α} {t : Text} :
    search read? t = none ↔ ∀ s, s <:+ t → read? s = none := by
  induction t with
  | nil => simp [search]
  | cons c t ih => simp [search, ih, List.suffix_cons_iff]

/-- What a search finds is read off a suffix. -/
theorem exists_suffix_of_search {α : Type} {read? : Text → Option α} {t : Text} {a : α}
    (h : search read? t = some a) : ∃ s, s <:+ t ∧ read? s = some a := by
  induction t with
  | nil => exact ⟨[], List.suffix_refl _, h⟩
  | cons c t ih =>
    rw [search, Option.or_eq_some_iff] at h
    rcases h with h | ⟨-, h⟩
    · exact ⟨c :: t, List.suffix_refl _, h⟩
    · obtain ⟨s, hs, ha⟩ := ih h
      exact ⟨s, hs.trans (List.suffix_cons _ _), ha⟩

end Text

open Text

namespace Entry

/-- The line of a block that holds the times. -/
def timeLine (e : Entry) : Text := e.startText ++ ' ' :: Block.arrow ++ ' ' :: e.stopText

/-- The lines of a subtitle's block. -/
def blockLines (e : Entry) : List Text :=
  Numeral.ofInt e.index :: e.timeLine :: if e.text = [] then [] else e.text.lines

/-- The block of a subtitle. -/
def block (e : Entry) : Text := unlines e.blockLines

/-- The subtitle as its own block gives it. -/
def reread (e : Entry) : Entry :=
  let e : Entry :=
    { index := e.index, start := e.start, stop := e.stop, text := e.text, raw := e.block }
  { e with issues := e.structuralIssues }

/-- The subtitle as a given block gives it with the times that were read. -/
def readAs (e : Entry) (block : Text) (times : Clock × Clock) : Entry :=
  let e : Entry := {
    index := e.index, start := times.1.total, stop := times.2.total, text := e.text, raw := block }
  { e with issues := e.structuralIssues }

/-- A subtitle with a positive index and with times below a hundred hours, whose text has no
carriage return. -/
structure Writable (e : Entry) : Prop where
  index_pos : 1 ≤ e.index
  start_nonneg : 0 ≤ e.start
  start_lt : e.start < 360000000
  stop_nonneg : 0 ≤ e.stop
  stop_lt : e.stop < 360000000
  no_return : '\r' ∉ e.text

end Entry

namespace Timestamp

theorem format_ne_nil (ms : Int) : format ms ≠ [] := by
  simp [format, Clock.text]

theorem not_isBlank_of_mem_format {ms : Int} {c : Char} (h : c ∈ format ms) :
    isBlank c = false := by
  rcases mem_format h with hd | rfl | rfl
  · exact Numeral.not_isBlank_of_isDigit hd
  · decide
  · decide

theorem narrow?_format {ms : Int} (h : ms < 360000000) (rest : Text) :
    narrow? (format ms ++ rest) = some (Clock.ofMillis ms.toNat, rest) :=
  narrow?_text (isNarrow_ofMillis (by omega)) rest

end Timestamp

namespace Block

open Entry

theorem hasArrow_iff {line : Text} : hasArrow line = true ↔ arrow <:+: line := by
  rw [hasArrow, Option.isSome_iff_exists]
  constructor
  · rintro ⟨rest, h⟩
    obtain ⟨s, hs, ha⟩ := exists_suffix_of_search h
    have hp : arrow <+: s := ⟨rest, (eq_append_of_after? ha).symm⟩
    exact hp.isInfix.trans hs.isInfix
  · rintro ⟨a, b, h⟩
    cases hn : search (after? arrow) line with
    | some rest => exact ⟨rest, rfl⟩
    | none =>
      have hs := search_eq_none_iff.1 hn (arrow ++ b) ⟨a, by rw [← h, List.append_assoc]⟩
      rw [after?_append] at hs
      cases hs

theorem hasArrow_of_not_mem {line : Text} (h : '-' ∉ line) : hasArrow line = false := by
  rw [Bool.eq_false_iff]
  intro ha
  exact h ((hasArrow_iff.1 ha).subset List.mem_cons_self)

theorem hasArrow_timeLine (e : Entry) : hasArrow e.timeLine = true := by
  rw [hasArrow_iff]
  exact ⟨e.startText ++ [' '], ' ' :: e.stopText, by simp [timeLine]⟩

theorem trimStart_space (t : Text) : trimStart (' ' :: t) = trimStart t := rfl

theorem times?_timeLine {e : Entry} (hs : e.start < 360000000) (ht : e.stop < 360000000) :
    times? e.timeLine = some (Clock.ofMillis e.start.toNat, Clock.ofMillis e.stop.toNat) := by
  have harrow : trimStart (arrow ++ ' ' :: e.stopText) = arrow ++ ' ' :: e.stopText := rfl
  have hstop : trimStart e.stopText = e.stopText :=
    (startsVisible_of_forall fun _ => Timestamp.not_isBlank_of_mem_format).trimStart_eq
  have hnarrow := Timestamp.narrow?_format ht []
  rw [List.append_nil, ← stopText] at hnarrow
  apply search_of_some
  rw [timesHere?, timeLine, List.append_assoc, startText, Timestamp.narrow?_format hs]
  simp only [List.cons_append, Option.bind_eq_bind, Option.bind_some, trimStart_space, harrow,
    after?_append, hstop, hnarrow, Option.pure_def]

theorem indexDigits_of_digits {ds : Text} (h : ∀ c ∈ ds, Numeral.isDigit c = true) :
    indexDigits ds = ds := by
  have htrim : trimStart ds = ds := StartsVisible.trimStart_eq <|
    startsVisible_of_forall fun c hc => Numeral.not_isBlank_of_isDigit (h c hc)
  have hafter : after? ['+'] ds = none := by
    cases ds with
    | nil => rfl
    | cons c ds =>
      refine if_neg ?_
      rintro rfl
      exact absurd (h _ List.mem_cons_self) (by decide)
  rw [indexDigits, htrim]
  simp only [hafter, Option.getD_none]
  rw [← List.append_nil ds, List.takeWhile_append_of_pos h, List.takeWhile_nil]

theorem readIndex_digits (n : Nat) (hn : 0 < n) (position : Int) :
    readIndex (Numeral.digits n) position = (Numeral.read (Numeral.digits n)).map Int.ofNat := by
  have hdigits : indexDigits (Numeral.digits n) = Numeral.digits n :=
    indexDigits_of_digits fun _ => Numeral.isDigit_of_mem_digits
  rw [readIndex, hdigits]
  split
  · next h => exact absurd h (Numeral.digits_ne_nil n)
  · rw [Numeral.read]
    split
    · simp [hn, Except.map, bind, Except.bind, pure, Except.pure]
    · rfl

end Block

namespace Entry

variable {e : Entry}

theorem isDigit_of_mem_index (hi : 1 ≤ e.index) {c : Char} (hc : c ∈ Numeral.ofInt e.index) :
    Numeral.isDigit c = true := by
  rw [Numeral.ofInt_of_nonneg (by omega)] at hc
  exact Numeral.isDigit_of_mem_digits hc

theorem mem_timeLine {c : Char} (h : c ∈ e.timeLine) :
    Numeral.isDigit c = true ∨ c ∈ [':', ',', ' ', '-', '>'] := by
  have htime {ms : Int} (h : c ∈ Timestamp.format ms) :
      Numeral.isDigit c = true ∨ c ∈ [':', ',', ' ', '-', '>'] := by
    rcases Timestamp.mem_format h with hd | rfl | rfl
    · exact .inl hd
    · exact .inr (by decide)
    · exact .inr (by decide)
  rcases List.mem_append.1 h with h | h
  · rcases List.mem_append.1 h with h | h
    · exact htime h
    · have hsub : ' ' :: Block.arrow ⊆ [':', ',', ' ', '-', '>'] := by decide
      exact .inr (hsub h)
  · rcases List.mem_cons.1 h with rfl | h
    · exact .inr (by decide)
    · exact htime h

theorem mem_blockLines {l : Text} (hl : l ∈ e.blockLines) :
    l = Numeral.ofInt e.index ∨ l = e.timeLine ∨ e.text ≠ [] ∧ l ∈ e.text.lines := by
  simp only [blockLines, List.mem_cons] at hl
  split at hl
  · simp_all
  · simp_all

theorem newline_not_mem_of_mem_blockLines (hi : 1 ≤ e.index) {l : Text} (hl : l ∈ e.blockLines) :
    '\n' ∉ l := by
  rcases mem_blockLines hl with rfl | rfl | ⟨-, hl⟩
  · intro hc
    exact absurd (isDigit_of_mem_index hi hc) (by decide)
  · intro hc
    exact absurd (mem_timeLine hc) (by decide)
  · exact newline_not_mem_of_mem_lines hl

theorem lines_block (hi : 1 ≤ e.index) : lines e.block = e.blockLines :=
  lines_unlines (List.cons_ne_nil _ _) fun _ => newline_not_mem_of_mem_blockLines hi

theorem ofInt_index_ne_nil (hi : 1 ≤ e.index) : Numeral.ofInt e.index ≠ [] := by
  rw [Numeral.ofInt_of_nonneg (by omega)]
  exact Numeral.digits_ne_nil _

theorem shown_of_mem_blockLines (hi : 1 ≤ e.index) (ht : e.text.NoBlankLine) {l : Text}
    (hl : l ∈ e.blockLines) : isBlankLine l = false := by
  rcases mem_blockLines hl with rfl | rfl | ⟨hne, hl⟩
  · obtain ⟨c, hc⟩ := List.exists_mem_of_ne_nil _ (ofInt_index_ne_nil hi)
    exact isBlankLine_eq_false_iff.2
      ⟨c, hc, Numeral.not_isBlank_of_isDigit (isDigit_of_mem_index hi hc)⟩
  · exact isBlankLine_eq_false_iff.2 ⟨'>', by simp [timeLine, Block.arrow], by decide⟩
  · exact (ht.resolve_left hne) l hl

theorem length_index_le_iff (hi : 1 ≤ e.index) :
    (Numeral.ofInt e.index).length ≤ maxNumeralDigits ↔ e.index < 10 ^ maxNumeralDigits := by
  rw [Numeral.ofInt_of_nonneg (by omega), Numeral.length_digits_le_iff (by decide),
    Int.toNat_lt (by omega), Int.natCast_pow]
  rfl

/-- A block whose shown lines are those of a subtitle is read by the time line alone: as malformed,
or as the subtitle with the times that were read, unless its index has too many digits. -/
theorem read_of_shownLines {block : Text} (hi : 1 ≤ e.index)
    (hshown : (lines block).filter (!isBlankLine ·) = e.blockLines) (position : Int) :
    Block.read block position =
      match Block.times? e.timeLine with
      | none => .ok (.ofMalformed position block Block.Fault.invalidTimestamp.message)
      | some times => (Numeral.read (Numeral.ofInt e.index)).map fun _ => e.readAs block times := by
  have hindex : Block.hasArrow (Numeral.ofInt e.index) = false :=
    Block.hasArrow_of_not_mem fun hc => absurd (isDigit_of_mem_index hi hc) (by decide)
  have hfrom : e.blockLines.dropWhile (!Block.hasArrow ·) = e.blockLines.tail := by
    simp [blockLines, hindex, Block.hasArrow_timeLine]
  have htext : unlines (if e.text = [] then [] else e.text.lines) = e.text := by
    split
    · next hnil => rw [hnil]; rfl
    · exact unlines_lines _
  rw [Block.read, hshown]
  rw [blockLines] at hfrom ⊢
  simp only [hfrom, List.tail_cons]
  cases Block.times? e.timeLine with
  | none => rfl
  | some times =>
    simp only
    rw [Block.subtitle, Numeral.ofInt_of_nonneg (by omega), Block.readIndex_digits _ (by omega)]
    rw [Numeral.read]
    split
    · simp only [Except.map, bind, Except.bind, pure, Except.pure, htext, Numeral.value_digits,
        Int.ofNat_eq_natCast, Int.toNat_of_nonneg (show 0 ≤ e.index by omega)]
      rfl
    · rfl

/-- A subtitle's own block is read as the subtitle, unless its index has too many digits. -/
theorem read_block (h : e.Writable) (ht : e.text.NoBlankLine) (position : Int) :
    Block.read e.block position =
      (Numeral.read (Numeral.ofInt e.index)).map fun _ => e.reread := by
  have hshown : (lines e.block).filter (!isBlankLine ·) = e.blockLines := by
    rw [lines_block h.index_pos, List.filter_eq_self]
    intro l hl
    rw [shown_of_mem_blockLines h.index_pos ht hl]
    rfl
  have hread : e.readAs e.block (Clock.ofMillis e.start.toNat, Clock.ofMillis e.stop.toNat) =
      e.reread := by
    simp only [readAs, reread, Clock.total_ofMillis, Int.toNat_of_nonneg h.start_nonneg,
      Int.toNat_of_nonneg h.stop_nonneg]
  rw [read_of_shownLines h.index_pos hshown, Block.times?_timeLine h.start_lt h.stop_lt]
  simp only [hread]

end Entry

namespace Block

variable {block : Text} {position : Int} {e : Entry}

/-- A block is read as malformed, or as the subtitle of its time line and of the shown lines after
it. -/
theorem read_cases (h : read block position = .ok e) :
    (∃ f : Fault, e = .ofMalformed position block f.message) ∨
      ∃ first timeLine text times, timeLine :: text <:+ (lines block).filter (!isBlankLine ·) ∧
        times? timeLine = some times ∧ subtitle block first position times text = .ok e := by
  rw [read] at h
  split at h
  · next first second rest hfilter =>
    split at h
    · injection h with h
      exact .inl ⟨_, h.symm⟩
    · next timeLine text hfrom =>
      split at h
      · injection h with h
        exact .inl ⟨_, h.symm⟩
      · next times htimes =>
        refine .inr ⟨first, timeLine, text, times, ?_, htimes, h⟩
        rw [hfilter, ← hfrom]
        exact List.dropWhile_suffix _
  · injection h with h
    exact .inl ⟨_, h.symm⟩

theorem isNarrow_of_times? {line : Text} {times : Clock × Clock} (h : times? line = some times) :
    Timestamp.IsNarrow times.1 ∧ Timestamp.IsNarrow times.2 := by
  obtain ⟨t, -, ht⟩ := exists_suffix_of_search h
  simp only [timesHere?, Option.bind_eq_bind, Option.bind_eq_some_iff, Prod.exists,
    Option.pure_def, Option.some.injEq] at ht
  obtain ⟨start, t₁, hstart, t₂, -, stop, t₃, hstop, rfl⟩ := ht
  exact ⟨Timestamp.isNarrow_of_narrow? hstart, Timestamp.isNarrow_of_narrow? hstop⟩

theorem subtitle_eq_ok {first : Text} {times : Clock × Clock} {text : List Text}
    (h : subtitle block first position times text = .ok e) :
    ∃ index, readIndex first position = .ok index ∧ e.index = index ∧
      e.start = times.1.total ∧ e.stop = times.2.total ∧ e.text = unlines text ∧
      e.malformed = false := by
  rw [subtitle] at h
  obtain ⟨index, hindex, h⟩ := exists_of_bind_eq_ok h
  injection h with h
  subst h
  exact ⟨index, hindex, rfl, rfl, rfl, rfl, rfl⟩

theorem readIndex_pos {line : Text} {index : Int} (hp : 1 ≤ position)
    (h : readIndex line position = .ok index) : 1 ≤ index := by
  rw [readIndex] at h
  split at h
  · injection h with h
    omega
  · rw [Numeral.read] at h
    split at h
    · injection h with h
      split at h <;> omega
    · cases h

/-- What a block that is no malformed one gives. -/
structure IsRead (block : Text) (e : Entry) : Prop where
  index_pos : 1 ≤ e.index
  start_nonneg : 0 ≤ e.start
  start_lt : e.start < 362440000
  stop_nonneg : 0 ≤ e.stop
  stop_lt : e.stop < 362440000
  text_sublist : e.text.Sublist block
  text_shown : e.text.NoBlankLine

theorem isRead_of_read (hp : 1 ≤ position) (h : read block position = .ok e)
    (he : e.malformed = false) : IsRead block e := by
  rcases read_cases h with ⟨f, rfl⟩ | ⟨first, timeLine, text, times, hsuffix, htimes, hs⟩
  · cases he
  · obtain ⟨index, hindex, hi, hstart, hstop, htext, -⟩ := subtitle_eq_ok hs
    obtain ⟨hn₁, hn₂⟩ := isNarrow_of_times? htimes
    have h₁ := hn₁.total_lt
    have h₂ := hn₂.total_lt
    have hshown := (List.suffix_cons _ _).trans hsuffix
    have hlines : text.Sublist (lines block) := hshown.sublist.trans List.filter_sublist
    refine ⟨hi ▸ readIndex_pos hp hindex, by omega, by omega, by omega, by omega, ?_, ?_⟩
    · have hu := unlines_sublist hlines
      rwa [unlines_lines, ← htext] at hu
    · rw [htext]
      by_cases hne : text = []
      · exact .inl (by rw [hne]; rfl)
      · refine .inr ?_
        rw [lines_unlines hne fun l hl => newline_not_mem_of_mem_lines (hlines.subset hl)]
        intro l hl
        simpa using (List.mem_filter.1 (hshown.subset hl)).2

end Block

end CueCheck
