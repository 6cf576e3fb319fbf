import CueCheck.Proofs.Rendering

/-!
Times from a hundred hours on: they are written with more than two digits of hours, but a time line
is read with two. An end that late is not read at all, and a start that late is read as an earlier
one.
-/

namespace CueCheck

open Text

namespace Numeral

theorem digits_eq_append {n : Nat} (h : 10 ≤ n) :
    digits n = digits (n / 10) ++ digits (n % 10) := by
  rw [digits, digits, digits,
    Nat.toDigits_append_toDigits (by decide) (by omega) (Nat.mod_lt n (by decide)),
    Nat.div_add_mod]

theorem padded_of_le_length {width n : Nat} (h : width ≤ (digits n).length) :
    padded width n = digits n := by
  rw [padded, Nat.sub_eq_zero_of_le h]
  rfl

theorem two_le_length_digits {n : Nat} (h : 10 ≤ n) : 2 ≤ (digits n).length := by
  by_contra hlt
  have hle : (digits n).length ≤ 1 := by omega
  rw [length_digits_le_iff (by decide)] at hle
  omega

theorem padded_two {n : Nat} (h : n < 100) :
    padded 2 n = digits (n / 10) ++ digits (n % 10) := by
  by_cases hn : 10 ≤ n
  · rw [padded_of_le_length (two_le_length_digits hn), digits_eq_append hn]
  · have hlen : (digits n).length = 1 := by
      have hle : (digits n).length ≤ 1 := (length_digits_le_iff (by decide)).2 (by omega)
      have hpos := List.length_pos_iff.2 (digits_ne_nil n)
      omega
    rw [padded, hlen, Nat.div_eq_of_lt (by omega), Nat.mod_eq_of_lt (by omega)]
    rfl

/-- A number in two digits or more ends with the two digits of its rest by a hundred. -/
theorem exists_padded_two_eq (n : Nat) :
    ∃ ds, (∀ c ∈ ds, isDigit c = true) ∧ padded 2 n = ds ++ padded 2 (n % 100) := by
  by_cases hn : n < 100
  · refine ⟨[], fun c hc => absurd hc List.not_mem_nil, ?_⟩
    rw [Nat.mod_eq_of_lt hn]
    rfl
  · refine ⟨digits (n / 100), fun c => isDigit_of_mem_digits, ?_⟩
    have hten : n / 10 / 10 = n / 100 := Nat.div_div_eq_div_mul n 10 10
    have hrest : n % 100 / 10 = n / 10 % 10 := by omega
    have hlast : n % 100 % 10 = n % 10 := by omega
    rw [padded_of_le_length (two_le_length_digits (by omega)), digits_eq_append (by omega),
      digits_eq_append (n := n / 10) (by omega), padded_two (Nat.mod_lt n (by decide)), hten, hrest,
      hlast, List.append_assoc]

end Numeral

namespace Timestamp

open Numeral

theorem suffix_of_narrow? {t rest : Text} {c : Clock} (h : narrow? t = some (c, rest)) :
    rest <:+ t := by
  obtain ⟨s, -, rfl⟩ := exists_spells_of_narrow? h
  exact List.suffix_append s rest

/-- Three digits in a row are no hours of two. -/
theorem narrow?_of_digits {ds : Text} (h : ∀ c ∈ ds, isDigit c = true) (hlen : 2 < ds.length)
    (rest : Text) : narrow? (ds ++ rest) = none := by
  match ds with
  | a :: b :: c :: ds =>
    have hc : ':' ≠ c := by
      rintro rfl
      exact absurd (h ':' (by simp)) (by decide)
    have hab : ∀ d ∈ [a, b], isDigit d = true := fun d hd => h d (List.mem_append_left (c :: ds) hd)
    have hhours : takeDigits? 2 (a :: b :: c :: ds ++ rest) = some ([a, b], c :: ds ++ rest) :=
      takeDigits?_append hab (c :: ds ++ rest)
    rw [narrow?, hhours]
    simp [afterHours?, after?, hc]

theorem narrow?_format_of_wide {ms : Int} (h : 360000000 ≤ ms) : narrow? (format ms) = none := by
  have hhours : 2 < (padded 2 (Clock.ofMillis ms.toNat).hours).length := by
    have hwide : 100 ≤ ms.toNat / 3600000 := by omega
    have hnot : ¬ (digits (ms.toNat / 3600000)).length ≤ 2 := by
      rw [length_digits_le_iff (by decide)]
      omega
    rw [length_padded]
    change 2 < max 2 (digits (ms.toNat / 3600000)).length
    omega
  rw [format, Clock.text, List.append_assoc, List.append_assoc]
  exact narrow?_of_digits (fun c => isDigit_of_mem_padded) hhours _

/-- A late time is written as an earlier one with more digits in front. -/
theorem exists_format_eq {ms : Int} (h : 0 ≤ ms) :
    ∃ ds, (∀ c ∈ ds, isDigit c = true) ∧ format ms = ds ++ format (ms % 360000000) := by
  obtain ⟨ds, hds, hhours⟩ := exists_padded_two_eq (ms.toNat / 3600000)
  refine ⟨ds, hds, ?_⟩
  have hh : (ms % 360000000).toNat / 3600000 = ms.toNat / 3600000 % 100 := by omega
  have hm : (ms % 360000000).toNat / 60000 % 60 = ms.toNat / 60000 % 60 := by omega
  have hs : (ms % 360000000).toNat / 1000 % 60 = ms.toNat / 1000 % 60 := by omega
  have hms : (ms % 360000000).toNat % 1000 = ms.toNat % 1000 := by omega
  simp only [format, Clock.text, Clock.ofMillis, hh, hm, hs, hms, hhours, List.append_assoc,
    List.cons_append]

end Timestamp

namespace Block

open Entry

/-- The search for two timestamps passes over digits that stand before those of the hours. -/
theorem times?_digits_append {ds : Text} (hds : ∀ c ∈ ds, Numeral.isDigit c = true) {ms : Int}
    (h : ms < 360000000) (rest : Text) :
    times? (ds ++ (Timestamp.format ms ++ rest)) = times? (Timestamp.format ms ++ rest) := by
  obtain ⟨hours, fields, hformat, hhours, hlen⟩ :
      ∃ hours fields, Timestamp.format ms = hours ++ fields ∧
        (∀ c ∈ hours, Numeral.isDigit c = true) ∧ hours.length = 2 := by
    rw [Timestamp.format, Clock.text, List.append_assoc, List.append_assoc]
    exact ⟨_, _, rfl, fun c => Numeral.isDigit_of_mem_padded,
      Numeral.length_padded_of_lt (by decide) (Timestamp.isNarrow_ofMillis (by omega)).hours⟩
  induction ds with
  | nil => rfl
  | cons d ds ih =>
    have hall : ∀ c ∈ d :: ds ++ hours, Numeral.isDigit c = true := by
      intro c hc
      exact (List.mem_append.1 hc).elim (hds c) (hhours c)
    have hnarrow : Timestamp.narrow? (d :: ds ++ (Timestamp.format ms ++ rest)) = none := by
      rw [hformat, List.append_assoc, ← List.append_assoc]
      exact Timestamp.narrow?_of_digits hall (by simp; omega) _
    have hhere : timesHere? (d :: ds ++ (Timestamp.format ms ++ rest)) = none := by
      rw [timesHere?, hnarrow]
      rfl
    rw [times?, List.cons_append, search, ← List.cons_append, hhere, Option.none_or]
    exact ih fun c hc => hds c (List.mem_cons_of_mem _ hc)

theorem arrow_sign_not_mem_format (ms : Int) : '>' ∉ Timestamp.format ms := by
  intro hc
  rcases Timestamp.mem_format hc with hd | hc | hc
  · exact absurd hd (by decide)
  · exact absurd hc (by decide)
  · exact absurd hc (by decide)

/-- The end that is read is the one right after the arrow, of which there is no other. -/
theorem times?_timeLine_of_wide {e : Entry} (h : 360000000 ≤ e.stop) :
    times? e.timeLine = none := by
  rw [times?, search_eq_none_iff]
  intro s hs
  by_contra hread
  obtain ⟨times, hread⟩ := Option.ne_none_iff_exists'.1 hread
  simp only [timesHere?, Option.bind_eq_bind, Option.bind_eq_some_iff, Prod.exists] at hread
  obtain ⟨start, t₁, hstart, t₂, harrow, stop, t₃, hstop, -⟩ := hread
  have hsuffix : trimStart t₁ <:+ e.timeLine :=
    ((List.dropWhile_suffix _).trans (Timestamp.suffix_of_narrow? hstart)).trans hs
  rw [eq_append_of_after? harrow] at hsuffix
  obtain ⟨before, hbefore⟩ := hsuffix
  have hline : (e.startText ++ [' ', '-', '-']) ++ '>' :: ' ' :: e.stopText =
      (before ++ ['-', '-']) ++ '>' :: t₂ := by
    simpa [timeLine, arrow] using hbefore.symm
  have hsigns : '>' ∉ e.startText ++ [' ', '-', '-'] ∧ '>' ∉ ' ' :: e.stopText := by
    simp [startText, stopText, arrow_sign_not_mem_format]
  obtain ⟨-, -, rfl⟩ := (List.append_cons_inj_of_notMem hsigns.1 hsigns.2).1 hline
  have htrim : trimStart (' ' :: e.stopText) = e.stopText :=
    (startsVisible_of_forall fun _ => Timestamp.not_isBlank_of_mem_format).trimStart_eq
  rw [htrim, stopText, Timestamp.narrow?_format_of_wide h] at hstop
  cases hstop

theorem times?_timeLine_of_late {e : Entry} (hstart : 0 ≤ e.start) (hstop : e.stop < 360000000) :
    times? e.timeLine =
      some (Clock.ofMillis (e.start % 360000000).toNat, Clock.ofMillis e.stop.toNat) := by
  obtain ⟨ds, hds, hformat⟩ := Timestamp.exists_format_eq hstart
  have hearly : e.start % 360000000 < 360000000 := Int.emod_lt_of_pos _ (by decide)
  have hread := times?_timeLine (e := { e with start := e.start % 360000000 }) hearly hstop
  rw [timeLine, startText, List.append_assoc] at hread ⊢
  rw [hformat, List.append_assoc, times?_digits_append hds hearly]
  exact hread

end Block

namespace Entry

variable {e : Entry}

theorem shownLines_renderEntry (hi : 1 ≤ e.index) (ht : e.text.NoBlankLine) :
    (lines (Document.renderEntry e)).filter (!isBlankLine ·) = e.blockLines := by
  have hshown : e.blockLines.filter (!isBlankLine ·) = e.blockLines := by
    rw [List.filter_eq_self]
    intro l hl
    rw [shown_of_mem_blockLines hi ht hl]
    rfl
  rw [lines_renderEntry hi]
  rw [blockLines] at hshown ⊢
  by_cases hne : e.text = []
  · rw [if_pos hne] at hshown ⊢
    rw [hne]
    -- The empty text is one blank line, which is not shown.
    exact (List.filter_append (p := (!isBlankLine ·)) [_, _] [[]]).trans (by rw [hshown]; rfl)
  · rw [if_neg hne] at hshown ⊢
    exact hshown

/-- A written subtitle as it is read: malformed if it ends at a hundred hours or later, and with the
hundreds of hours taken off its start if not. -/
theorem read_renderEntry (hi : 1 ≤ e.index) (hdigits : e.index < 10 ^ maxNumeralDigits)
    (hstart : 0 ≤ e.start) (ht : e.text.NoBlankLine) (position : Int) :
    Block.read (Document.renderEntry e) position = .ok (
      if e.stop < 360000000 then
        e.readAs (Document.renderEntry e)
          (Clock.ofMillis (e.start % 360000000).toNat, Clock.ofMillis e.stop.toNat)
      else
        .ofMalformed position (Document.renderEntry e) Block.Fault.invalidTimestamp.message) := by
  rw [read_of_shownLines hi (shownLines_renderEntry hi ht)]
  by_cases hstop : e.stop < 360000000
  · have hread : Numeral.read (Numeral.ofInt e.index) =
        .ok (Numeral.value (Numeral.ofInt e.index)) :=
      if_pos ((length_index_le_iff hi).2 hdigits)
    rw [if_pos hstop, Block.times?_timeLine_of_late hstart hstop, hread]
    rfl
  · rw [if_neg hstop, Block.times?_timeLine_of_wide (by omega)]

/-- A written subtitle is read back with its times exactly when both lie below a hundred hours. A
later end makes the block malformed; a later start is read as an earlier one. -/
theorem read_renderEntry_iff (hi : 1 ≤ e.index) (hdigits : e.index < 10 ^ maxNumeralDigits)
    (hstart : 0 ≤ e.start) (hstop : 0 ≤ e.stop) (ht : e.text.NoBlankLine) (position : Int) :
    ∃ e', Block.read (Document.renderEntry e) position = .ok e' ∧
      (e'.malformed = false ∧ e'.start = e.start ∧ e'.stop = e.stop ↔
        e.start < 360000000 ∧ e.stop < 360000000) ∧
      (e'.malformed = true ↔ 360000000 ≤ e.stop) ∧
      (e'.malformed = false → e'.start = e.start % 360000000 ∧ e'.stop = e.stop) := by
  refine ⟨_, read_renderEntry hi hdigits hstart ht position, ?_⟩
  have hrest : 0 ≤ e.start % 360000000 := Int.emod_nonneg _ (by decide)
  have hbelow : e.start % 360000000 < 360000000 := Int.emod_lt_of_pos _ (by decide)
  by_cases hlt : e.stop < 360000000
  · rw [if_pos hlt]
    simp only [readAs, Clock.total_ofMillis, Int.toNat_of_nonneg hrest, Int.toNat_of_nonneg hstop]
    refine ⟨?_, ?_, fun _ => ⟨trivial, trivial⟩⟩
    · constructor
      · rintro ⟨-, heq, -⟩
        exact ⟨heq ▸ hbelow, hlt⟩
      · rintro ⟨hearly, -⟩
        exact ⟨trivial, Int.emod_eq_of_lt hstart hearly, trivial⟩
    · constructor
      · intro hm
        cases hm
      · intro hle
        omega
  · rw [if_neg hlt]
    refine ⟨?_, ?_, ?_⟩
    · constructor
      · rintro ⟨hm, -⟩
        cases hm
      · rintro ⟨-, h⟩
        exact absurd h hlt
    · exact ⟨fun _ => Int.not_lt.1 hlt, fun _ => rfl⟩
    · intro hm
      cases hm

/-- The last second below a hundred hours, in a text that looks like a time line. -/
theorem read_renderEntry_lastSecond :
    let e : Entry := {
      index := 7, start := 359999000, stop := 359999999,
      text := "00:00:01,000 --> 100:00:00,000\n -->".toList }
    (1 ≤ e.index ∧ e.index < 10 ^ maxNumeralDigits ∧ 0 ≤ e.start ∧ 0 ≤ e.stop ∧
        e.text.NoBlankLine) ∧
      ∃ e', Block.read (Document.renderEntry e) 3 = .ok e' ∧ e'.malformed = false ∧
        e'.start = e.start ∧ e'.stop = e.stop := by
  intro e
  have hdigits : e.index < 10 ^ maxNumeralDigits := Numeral.lt_pow_maxNumeralDigits (by decide)
  have ht : e.text.NoBlankLine := by decide
  obtain ⟨e', hread, hsame, -⟩ :=
    read_renderEntry_iff (e := e) (by decide) hdigits (by decide) (by decide) ht 3
  exact ⟨⟨by decide, hdigits, by decide, by decide, ht⟩, e', hread, hsame.2 ⟨by decide, by decide⟩⟩

/-- A subtitle that ends half a second after a hundred hours is lost when it is read back, and one
that starts there comes back at the beginning. -/
theorem read_renderEntry_hundredHours :
    let e : Entry := { index := 1, start := 359999500, stop := 360000500, text := "Hi".toList }
    (1 ≤ e.index ∧ e.index < 10 ^ maxNumeralDigits ∧ 0 ≤ e.start ∧ 0 ≤ e.stop ∧ e.text ≠ [] ∧
        e.text.NoBlankLine) ∧
      (¬ ∃ e', Block.read (Document.renderEntry e) 1 = .ok e' ∧ e'.malformed = false ∧
        e'.start = e.start ∧ e'.stop = e.stop) ∧
      (Block.read (Document.renderEntry { e with start := 360000000, stop := 5000 }) 1).map
        (fun e' => (e'.malformed, e'.start, e'.stop)) = .ok (false, 0, 5000) := by
  intro e
  have hlost : (Block.read (Document.renderEntry e) 1).map (·.malformed) = .ok true := by
    decide +kernel
  refine ⟨⟨by decide, Numeral.lt_pow_maxNumeralDigits (by decide), by decide, by decide, by decide,
    by decide⟩, ?_, by decide +kernel⟩
  rintro ⟨e', hread, hm, -⟩
  rw [hread, Except.map, hm] at hlost
  cases hlost

end Entry

end CueCheck
