import CueCheck.Proofs.TolerantReading

/-!
Blocks written loosely: what may stand around an index and around two timestamps without keeping a
block from being read, and what a block without an index line is read as.
-/

namespace CueCheck

open Text

namespace Text

theorem trimStart_blank_append {ws : Text} (h : ∀ c ∈ ws, isBlank c = true) {t : Text}
    (ht : StartsVisible t) : trimStart (ws ++ t) = t := by
  rw [trimStart, List.dropWhile_append_of_pos h, ← trimStart, ht.trimStart_eq]

/-- A search passes over what its reader cannot start with. -/
theorem search_append {α : Type} {read? : Text → Option α} {before : Text}
    (h : ∀ c ∈ before, ∀ t, read? (c :: t) = none) (t : Text) :
    search read? (before ++ t) = search read? t := by
  induction before with
  | nil => rfl
  | cons c before ih =>
    rw [List.cons_append, search, h c List.mem_cons_self, Option.none_or]
    exact ih fun d hd => h d (List.mem_cons_of_mem _ hd)

/-- What starts with a character that the first part lacks is found in the second part. -/
theorem infix_of_infix_append {c : Char} {word before t : Text} (hc : c ∉ before)
    (h : c :: word <:+: before ++ t) : c :: word <:+: t := by
  induction before with
  | nil => exact h
  | cons d before ih =>
    rw [List.mem_cons, not_or] at hc
    rw [List.cons_append, List.infix_cons_iff, List.cons_prefix_cons] at h
    rcases h with ⟨hcd, -⟩ | h
    · exact absurd hcd hc.1
    · exact ih hc.2 h

end Text

namespace Timestamp

/-- A timestamp starts with the two digits of its hours. -/
theorem Spells.exists_hours {t : Text} {c : Clock} (h : Spells t c) :
    ∃ hours fields, t = hours ++ ':' :: fields ∧ IsField 2 hours ∧ hours ≠ [] ∧
      c.hours = Numeral.value hours := by
  cases h with
  | @fields hours minutes seconds millis hh =>
    refine ⟨hours, minutes ++ ':' :: seconds ++ ',' :: millis, by simp, hh, ?_, rfl⟩
    rintro rfl
    exact absurd hh.length (by decide)

theorem Spells.startsVisible_append {t : Text} {c : Clock} (h : Spells t c) (rest : Text) :
    StartsVisible (t ++ rest) := by
  obtain ⟨hours, fields, rfl, hh, hne, -⟩ := h.exists_hours
  have hhours : StartsVisible hours :=
    startsVisible_of_forall fun c hc => Numeral.not_isBlank_of_isDigit (hh.digits c hc)
  rw [List.append_assoc]
  exact hhours.append hne _

theorem narrow?_blank {c : Char} (hc : isBlank c = true) (t : Text) : narrow? (c :: t) = none := by
  have hdigit : ¬ Numeral.isDigit c = true := by
    intro hd
    exact Bool.false_ne_true ((Numeral.not_isBlank_of_isDigit hd).symm.trans hc)
  rw [narrow?, takeDigits?, if_neg hdigit]
  rfl

end Timestamp

namespace Block

open Timestamp

/-! The lines of a block. -/

/-- A line with the times of a subtitle: an arrow between two timestamps, with any blanks before and
after the first and before the second, and with anything after that. -/
inductive IsTimeLine : Text → Clock → Clock → Prop where
  | parts {first second : Text} {start stop : Clock} (indent before after tail : Text)
      (hindent : ∀ c ∈ indent, isBlank c = true) (hstart : Spells first start)
      (hbefore : ∀ c ∈ before, isBlank c = true) (hafter : ∀ c ∈ after, isBlank c = true)
      (hstop : Spells second stop) :
      IsTimeLine (indent ++ (first ++ (before ++ (arrow ++ (after ++ (second ++ tail))))))
        start stop

/-- A line with an index: blanks and a plus sign as one likes, the digits of a number, and anything
without an arrow after them. -/
inductive IsIndexLine : Text → Nat → Prop where
  | parts (indent sign digits junk : Text) (hindent : ∀ c ∈ indent, isBlank c = true)
      (hsign : sign = [] ∨ sign = ['+']) (hdigits : ∀ c ∈ digits, Numeral.isDigit c = true)
      (hne : digits ≠ []) (hlength : digits.length ≤ maxNumeralDigits)
      (hjunk : ∀ c ∈ junk.head?, Numeral.isDigit c = false) (harrow : ¬ arrow <:+: junk) :
      IsIndexLine (indent ++ (sign ++ (digits ++ junk))) (Numeral.value digits)

variable {line : Text} {start stop : Clock} {n : Nat}

theorem IsTimeLine.hasArrow (h : IsTimeLine line start stop) : hasArrow line = true := by
  cases h with
  | @parts first second _ _ indent before after tail =>
    rw [hasArrow_iff]
    exact ⟨indent ++ first ++ before, after ++ (second ++ tail), by simp⟩

theorem IsTimeLine.times?_eq (h : IsTimeLine line start stop) :
    times? line = some (start, stop) := by
  cases h with
  | @parts first second _ _ indent before after tail hindent hstart hbefore hafter hstop =>
    have hblank : ∀ c ∈ indent, ∀ t, timesHere? (c :: t) = none := by
      intro c hc t
      rw [timesHere?, narrow?_blank (hindent c hc)]
      rfl
    have harrow : trimStart (before ++ (arrow ++ (after ++ (second ++ tail)))) =
        arrow ++ (after ++ (second ++ tail)) :=
      trimStart_blank_append hbefore fun c hc => by cases hc; decide
    have hsecond : trimStart (after ++ (second ++ tail)) = second ++ tail :=
      trimStart_blank_append hafter (hstop.startsVisible_append tail)
    rw [times?, search_append hblank]
    apply search_of_some
    rw [timesHere?, hstart.narrow?_append]
    simp only [Option.bind_eq_bind, Option.bind_some, harrow, after?_append, hsecond,
      hstop.narrow?_append, Option.pure_def]

theorem indexDigits_append {indent sign digits junk : Text}
    (hindent : ∀ c ∈ indent, isBlank c = true) (hsign : sign = [] ∨ sign = ['+'])
    (hdigits : ∀ c ∈ digits, Numeral.isDigit c = true) (hne : digits ≠ [])
    (hjunk : ∀ c ∈ junk.head?, Numeral.isDigit c = false) :
    indexDigits (indent ++ (sign ++ (digits ++ junk))) = digits := by
  have hrun := (Timestamp.takeWhile_isDigit_append hdigits hjunk).1
  have hvisible : StartsVisible (digits ++ junk) :=
    (startsVisible_of_forall fun c hc =>
      Numeral.not_isBlank_of_isDigit (hdigits c hc)).append hne _
  rw [indexDigits]
  rcases hsign with rfl | rfl
  · have hplus : after? ['+'] (digits ++ junk) = none := by
      obtain ⟨d, ds, rfl⟩ := List.exists_cons_of_ne_nil hne
      apply if_neg
      rintro rfl
      exact absurd (hdigits '+' List.mem_cons_self) (by decide)
    simp only [List.nil_append, trimStart_blank_append hindent hvisible, hplus, Option.getD_none,
      hrun]
  · have hsigned : StartsVisible (['+'] ++ (digits ++ junk)) := fun c hc => by cases hc; decide
    simp only [trimStart_blank_append hindent hsigned, after?_append, Option.getD_some, hrun]

theorem IsIndexLine.readIndex_eq (h : IsIndexLine line n) (hn : 1 ≤ n) (position : Int) :
    readIndex line position = .ok n := by
  cases h with
  | parts indent sign digits junk hindent hsign hdigits hne hlength hjunk =>
    have hread := indexDigits_append hindent hsign hdigits hne hjunk
    rw [readIndex_eq_ok (by rw [hread]; exact hlength), hread, if_pos (Nat.lt_of_succ_le hn)]

/-- What a line with an index has before its number starts no arrow. -/
theorem IsIndexLine.hasArrow (h : IsIndexLine line n) : hasArrow line = false := by
  cases h with
  | parts indent sign digits junk hindent hsign hdigits hne hlength hjunk harrow =>
    rw [Bool.eq_false_iff]
    intro hfound
    have hindent' : '-' ∉ indent := fun hc => absurd (hindent _ hc) (by decide)
    have hsign' : '-' ∉ sign := by
      rcases hsign with rfl | rfl <;> decide
    have hdigits' : '-' ∉ digits := fun hc => absurd (hdigits _ hc) (by decide)
    exact harrow <| infix_of_infix_append hdigits' <| infix_of_infix_append hsign' <|
      infix_of_infix_append hindent' (hasArrow_iff.1 hfound)

theorem IsIndexLine.shown (h : IsIndexLine line n) : isBlankLine line = false := by
  cases h with
  | parts indent sign digits junk hindent hsign hdigits hne =>
    obtain ⟨c, hc⟩ := List.exists_mem_of_ne_nil digits hne
    exact isBlankLine_eq_false_iff.2
      ⟨c, by simp [hc], Numeral.not_isBlank_of_isDigit (hdigits c hc)⟩

theorem IsTimeLine.shown (h : IsTimeLine line start stop) : isBlankLine line = false := by
  have hsign : '-' ∈ line := (hasArrow_iff.1 h.hasArrow).subset List.mem_cons_self
  exact isBlankLine_eq_false_iff.2 ⟨'-', hsign, by decide⟩

/-- The digits that a time line starts with are those of the hours. -/
theorem IsTimeLine.readIndex_eq (h : IsTimeLine line start stop) (position : Int) :
    readIndex line position =
      .ok (if start.hours = 0 then position else (start.hours : Int)) := by
  cases h with
  | @parts first second _ _ indent before after tail hindent hstart =>
    obtain ⟨hours, fields, rfl, hh, hne, hvalue⟩ := hstart.exists_hours
    generalize before ++ (arrow ++ (after ++ (second ++ tail))) = rest
    have hcolon : ∀ c ∈ (':' :: (fields ++ rest)).head?, Numeral.isDigit c = false := by
      intro c hc
      cases hc
      decide
    have hread := indexDigits_append hindent (.inl rfl) hh.digits hne hcolon
    have hline : indent ++ ((hours ++ ':' :: fields) ++ rest) =
        indent ++ ([] ++ (hours ++ ':' :: (fields ++ rest))) := by simp
    have hlength : hours.length ≤ maxNumeralDigits := by
      rw [hh.length]
      decide
    rw [hline, readIndex_eq_ok (by rw [hread]; exact hlength), hread, ← hvalue]
    by_cases hzero : start.hours = 0
    · rw [if_pos hzero, if_neg (by omega)]
    · rw [if_neg hzero, if_pos (by omega)]

/-! Blocks. -/

variable {block : Text} {text : List Text} {position : Int}

/-- A block is read by its first line with an arrow, if that holds two timestamps. -/
theorem read_eq_subtitle {first second timeLine : Text} {rest before : List Text}
    (hshown : shownLines block = first :: second :: rest)
    (hlines : first :: second :: rest = before ++ timeLine :: text)
    (hbefore : ∀ l ∈ before, hasArrow l = false) (htime : IsTimeLine timeLine start stop)
    (position : Int) :
    read block position = subtitle block first position (start, stop) text := by
  have hfrom : (first :: second :: rest).dropWhile (!hasArrow ·) = timeLine :: text := by
    rw [hlines, List.dropWhile_append_of_pos fun l hl => by simp [hbefore l hl],
      List.dropWhile_cons_of_neg (by simp [htime.hasArrow])]
  rw [shownLines] at hshown
  rw [read, hshown]
  simp only [hfrom, htime.times?_eq]

/-- A subtitle with the times, the text and the block that were read, and with an index. -/
structure IsReading (e : Entry) (block : Text) (start stop : Clock) (text : List Text) : Prop where
  malformed : e.malformed = false
  start_eq : e.start = start.total
  stop_eq : e.stop = stop.total
  text_eq : e.text = unlines text
  raw_eq : e.raw = block
  issues_eq : e.issues = e.structuralIssues

theorem exists_subtitle {first : Text} {index : Int} (h : readIndex first position = .ok index) :
    ∃ e, subtitle block first position (start, stop) text = .ok e ∧ e.index = index ∧
      IsReading e block start stop text := by
  rw [subtitle, h]
  exact ⟨_, rfl, rfl, rfl, rfl, rfl, rfl, rfl, rfl⟩

/-- A block is read as the subtitle it spells, however loosely its lines are written: an index line,
any lines without an arrow, the line with the times, and any lines of text. -/
theorem read_looseBlock {first timeLine : Text} {stray text : List Text} {n : Nat}
    {start stop : Clock} (hfirst : IsIndexLine first n) (hn : 1 ≤ n)
    (hstray : ∀ line ∈ stray, isBlankLine line = false ∧ ¬ arrow <:+: line)
    (htime : IsTimeLine timeLine start stop) (htext : ∀ line ∈ text, isBlankLine line = false)
    (hlines : ∀ line ∈ first :: (stray ++ timeLine :: text), '\n' ∉ line) (position : Int) :
    let block := unlines (first :: (stray ++ timeLine :: text))
    ∃ e, read block position = .ok e ∧ e.index = n ∧ IsReading e block start stop text := by
  intro block
  have hshown : shownLines block = first :: (stray ++ timeLine :: text) := by
    have hvisible : ∀ line ∈ first :: (stray ++ timeLine :: text), isBlankLine line = false := by
      rw [List.forall_mem_cons, List.forall_mem_append, List.forall_mem_cons]
      exact ⟨hfirst.shown, fun line hline => (hstray line hline).1, htime.shown, htext⟩
    rw [shownLines, lines_unlines (List.cons_ne_nil _ _) hlines, List.filter_eq_self]
    intro line hline
    rw [hvisible line hline]
    rfl
  have hbefore : ∀ line ∈ first :: stray, hasArrow line = false := by
    rw [List.forall_mem_cons]
    refine ⟨hfirst.hasArrow, fun line hline => ?_⟩
    rw [Bool.eq_false_iff]
    exact fun harrow => (hstray line hline).2 (hasArrow_iff.1 harrow)
  obtain ⟨second, rest, hrest⟩ : ∃ second rest, stray ++ timeLine :: text = second :: rest :=
    List.exists_cons_of_ne_nil (by simp)
  rw [hrest] at hshown
  have hsame : first :: second :: rest = (first :: stray) ++ timeLine :: text := by
    rw [List.cons_append, hrest]
  rw [read_eq_subtitle hshown hsame hbefore htime position]
  exact exists_subtitle (hfirst.readIndex_eq hn position)

/-- Leading zeros and junk, a line with one timestamp, digits glued to another, and a text that
looks like a time line. -/
theorem read_looseBlock_glued :
    let first : Text := "\t+007. take 12".toList
    let timeLine : Text := " 01:02:03,004-->  00:99:05,0007 --> x".toList
    let stray : List Text := ["- 00:00:09,000".toList]
    let text : List Text := ["--> 00:00:01,000".toList, "Hi".toList]
    ∃ e, read (unlines (first :: (stray ++ timeLine :: text))) 3 = .ok e ∧ e.malformed = false ∧
      e.index = 7 ∧ e.start = 3723004 ∧ e.stop = 5945000 ∧
      e.text = "--> 00:00:01,000\nHi".toList := by
  intro first timeLine stray text
  have hfirst : IsIndexLine first 7 := by
    have hjunk : ¬ arrow <:+: ". take 12".toList := by
      rw [← hasArrow_iff]
      decide
    exact .parts ['\t'] ['+'] "007".toList ". take 12".toList (List.all_eq_true.1 rfl) (.inr rfl)
      (List.all_eq_true.1 rfl) (by decide) (by decide +kernel) (by rintro c ⟨⟩; rfl) hjunk
  have hstart : Spells "01:02:03,004".toList ⟨1, 2, 3, 4⟩ := by decide
  have hstop : Spells "00:99:05,000".toList ⟨0, 99, 5, 0⟩ := by decide
  have htime : IsTimeLine timeLine ⟨1, 2, 3, 4⟩ ⟨0, 99, 5, 0⟩ :=
    .parts [' '] [] [' ', ' '] "7 --> x".toList (List.all_eq_true.1 rfl) hstart
      (List.all_eq_true.1 rfl) (List.all_eq_true.1 rfl) hstop
  have hstray : ∀ line ∈ stray, isBlankLine line = false ∧ ¬ arrow <:+: line := by
    intro line hline
    rw [← hasArrow_iff, List.mem_singleton.1 hline]
    decide
  have htext : ∀ line ∈ text, isBlankLine line = false := by decide
  have hlines : ∀ line ∈ first :: (stray ++ timeLine :: text), '\n' ∉ line := by decide
  obtain ⟨e, hread, hindex, hreading⟩ :=
    read_looseBlock hfirst (by decide) hstray htime htext hlines 3
  exact ⟨e, hread, hreading.malformed, hindex, hreading.start_eq, hreading.stop_eq,
    hreading.text_eq⟩

/-- A block whose first line is the one with the times takes its index from the digits of the hours,
and only where these are zero from its position. -/
theorem read_unnumbered {block timeLine : Text} {text : List Text} {start stop : Clock}
    (htime : IsTimeLine timeLine start stop) (hshown : shownLines block = timeLine :: text)
    (hne : text ≠ []) (position : Int) :
    ∃ e, read block position = .ok e ∧ IsReading e block start stop text ∧
      e.index = (if start.hours = 0 then position else (start.hours : Int)) ∧
      (e.index = position ↔ start.hours = 0 ∨ (start.hours : Int) = position) := by
  obtain ⟨second, rest, rfl⟩ := List.exists_cons_of_ne_nil hne
  have hread := read_eq_subtitle hshown (List.nil_append _).symm (by simp) htime position
  obtain ⟨e, he, hindex, hreading⟩ := exists_subtitle (htime.readIndex_eq position)
  refine ⟨e, hread.trans he, hreading, hindex, ?_⟩
  rw [hindex]
  split
  · next hzero => simp [hzero]
  · next hhours => simp [hhours]

/-- Hours that happen to be the position, after a blank line and an indentation. -/
theorem read_unnumbered_samePosition :
    let block : Text := " \n\t07:00:00,000 --> 07:00:02,000\n\nHi".toList
    let timeLine : Text := "\t07:00:00,000 --> 07:00:02,000".toList
    (IsTimeLine timeLine ⟨7, 0, 0, 0⟩ ⟨7, 0, 2, 0⟩ ∧ shownLines block = [timeLine, "Hi".toList]) ∧
      ∃ e, read block 7 = .ok e ∧ e.malformed = false ∧ e.index = 7 := by
  intro block timeLine
  have hstart : Spells "07:00:00,000".toList ⟨7, 0, 0, 0⟩ := by decide
  have hstop : Spells "07:00:02,000".toList ⟨7, 0, 2, 0⟩ := by decide
  have htime : IsTimeLine timeLine ⟨7, 0, 0, 0⟩ ⟨7, 0, 2, 0⟩ :=
    .parts ['\t'] [' '] [' '] [] (List.all_eq_true.1 rfl) hstart (List.all_eq_true.1 rfl)
      (List.all_eq_true.1 rfl) hstop
  have hshown : shownLines block = [timeLine, "Hi".toList] := by decide +kernel
  obtain ⟨e, hread, hreading, -, hposition⟩ :=
    read_unnumbered htime hshown (List.cons_ne_nil _ _) 7
  exact ⟨⟨htime, hshown⟩, e, hread, hreading.malformed, hposition.2 (.inr rfl)⟩

/-- The seventh block of a file, without an index line, takes the hour for its index. -/
theorem read_unnumbered_firstHour :
    let block : Text := "01:00:00,000 --> 01:00:02,000\nHi".toList
    let timeLine : Text := "01:00:00,000 --> 01:00:02,000".toList
    IsTimeLine timeLine ⟨1, 0, 0, 0⟩ ⟨1, 0, 2, 0⟩ ∧ shownLines block = [timeLine, "Hi".toList] ∧
      (read block 7).map (fun e => (e.malformed, e.index)) = .ok (false, 1) ∧
      ¬ ∃ e, read block 7 = .ok e ∧ e.malformed = false ∧ e.index = 7 := by
  intro block timeLine
  have hstart : Spells "01:00:00,000".toList ⟨1, 0, 0, 0⟩ := by decide
  have hstop : Spells "01:00:02,000".toList ⟨1, 0, 2, 0⟩ := by decide
  have htime : IsTimeLine timeLine ⟨1, 0, 0, 0⟩ ⟨1, 0, 2, 0⟩ :=
    .parts [] [' '] [' '] [] (List.all_eq_true.1 rfl) hstart (List.all_eq_true.1 rfl)
      (List.all_eq_true.1 rfl) hstop
  have hread : (read block 7).map (fun e => (e.malformed, e.index)) = .ok (false, 1) := by
    decide +kernel
  refine ⟨htime, by decide +kernel, hread, ?_⟩
  rintro ⟨e, he, -, hindex⟩
  rw [he, Except.map, hindex] at hread
  injection hread with hread
  exact absurd (Prod.mk.inj hread).2 (by decide)

end Block

end CueCheck
