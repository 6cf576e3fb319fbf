import CueCheck.Proofs.Rendering

/-!
Writing a document and reading it back: the subtitles come back as they were, but for blanks at the
end of the last text.
-/

namespace CueCheck

open Text

/-- What a block says of a subtitle. -/
structure Cue where
  index : Int
  start : Int
  stop : Int
  text : Text
deriving DecidableEq, Repr

/-- The same with a text that has no blanks at its end. -/
def Cue.trimmedEnd (c : Cue) : Cue := { c with text := c.text.trimEnd }

def Entry.cue (e : Entry) : Cue := ⟨e.index, e.start, e.stop, e.text⟩

namespace Document

/-- The document has no malformed block, and these subtitles. -/
def Holds (d : Document) (cues : List Cue) : Prop :=
  d.malformed = [] ∧ d.entries.map Entry.cue = cues

theorem holds_reread (es : List Entry) (filename : Option Text) :
    Holds ⟨es.map Entry.reread, filename⟩ (es.map Entry.cue) := by
  refine ⟨?_, ?_⟩
  · rw [malformed, List.filter_eq_nil_iff]
    intro e he
    obtain ⟨e', -, rfl⟩ := List.mem_map.1 he
    simp [Entry.reread]
  · rw [List.map_map]
    rfl

theorem map_cue_modifyLast (es : List Entry) :
    (es.modifyLast Entry.trimmedEnd).map Entry.cue =
      (es.map Entry.cue).modifyLast Cue.trimmedEnd := by
  rcases List.eq_nil_or_concat' es with rfl | ⟨init, last, rfl⟩
  · rfl
  · rw [List.modifyLast_concat, List.map_append, List.map_append, List.map_singleton,
      List.map_singleton, List.modifyLast_concat]
    rfl

theorem map_modifyLast_trimmedEnd {α : Type} {f : Entry → α} (hf : ∀ e, f e.trimmedEnd = f e)
    (es : List Entry) : (es.modifyLast Entry.trimmedEnd).map f = es.map f := by
  rcases List.eq_nil_or_concat' es with rfl | ⟨init, last, rfl⟩
  · rfl
  · rw [List.modifyLast_concat, List.map_append, List.map_append, List.map_singleton,
      List.map_singleton, hf]

theorem forall_mem_modifyLast {P : Entry → Prop} {es : List Entry} (h : ∀ e ∈ es, P e)
    (hP : ∀ e, P e → P e.trimmedEnd) : ∀ e ∈ es.modifyLast Entry.trimmedEnd, P e := by
  rcases List.eq_nil_or_concat' es with rfl | ⟨init, last, rfl⟩
  · exact h
  · intro e he
    rw [List.modifyLast_concat] at he
    rcases List.mem_append.1 he with he | he
    · exact h e (List.mem_append_left _ he)
    · rw [List.mem_singleton.1 he]
      exact hP last (h last (by simp))

theorem modifyLast_trimmedEnd {es : List Entry} (h : ∀ e ∈ es, EndsVisible e.text) :
    es.modifyLast Entry.trimmedEnd = es := by
  rcases List.eq_nil_or_concat' es with rfl | ⟨init, last, rfl⟩
  · rfl
  · have hlast := (h last (by simp)).trimEnd_eq
    rw [List.modifyLast_concat, Entry.trimmedEnd, hlast]

theorem readBlocks_block {es : List Entry} (h : ∀ e ∈ es, e.Writable ∧ e.text.NoBlankLine)
    (hi : ∀ e ∈ es, e.index < 10 ^ maxNumeralDigits) (position : Nat) :
    readBlocks position (es.map Entry.block) = .ok (es.map Entry.reread) := by
  induction es generalizing position with
  | nil => rfl
  | cons e es ih =>
    obtain ⟨hw, ht⟩ := h e List.mem_cons_self
    have hlen := (Entry.length_index_le_iff hw.index_pos).2 (hi e List.mem_cons_self)
    have hrest := ih (fun e he => h e (List.mem_cons_of_mem _ he))
      (fun e he => hi e (List.mem_cons_of_mem _ he)) (position + 1)
    rw [List.map_cons, readBlocks, Entry.read_block hw ht, Numeral.read, if_pos hlen, hrest]
    rfl

/-- Blocks that can be read have no index with too many digits. -/
theorem index_lt_of_readBlocks {es : List Entry} (h : ∀ e ∈ es, e.Writable ∧ e.text.NoBlankLine)
    {position : Nat} {entries : List Entry}
    (hr : readBlocks position (es.map Entry.block) = .ok entries) :
    ∀ e ∈ es, e.index < 10 ^ maxNumeralDigits := by
  induction es generalizing position entries with
  | nil => exact fun e he => absurd he List.not_mem_nil
  | cons e es ih =>
    obtain ⟨hw, ht⟩ := h e List.mem_cons_self
    rw [List.map_cons, readBlocks, Entry.read_block hw ht] at hr
    obtain ⟨first, hfirst, hr⟩ := exists_of_bind_eq_ok hr
    obtain ⟨rest, hrest, -⟩ := exists_of_bind_eq_ok hr
    obtain ⟨n, hn, -⟩ := exists_of_map_eq_ok hfirst
    have hlen : (Numeral.ofInt e.index).length ≤ maxNumeralDigits := by
      rw [Numeral.read] at hn
      split at hn
      · next hlen => exact hlen
      · cases hn
    exact List.forall_mem_cons.2 ⟨(Entry.length_index_le_iff hw.index_pos).1 hlen,
      ih (fun e he => h e (List.mem_cons_of_mem _ he)) hrest⟩

/-- Reading a written document gives its subtitles, the last with its text trimmed. -/
theorem parse_render_eq {d : Document} (filename : Option Text)
    (h : ∀ e ∈ d.subtitles, e.Writable ∧ e.text.NoBlankLine)
    (hi : ∀ e ∈ d.subtitles, e.index < 10 ^ maxNumeralDigits) :
    parse d.render filename =
      .ok ⟨(d.subtitles.modifyLast Entry.trimmedEnd).map Entry.reread, filename⟩ := by
  apply parse_eq_of_readBlocks
  rw [split_render h]
  apply readBlocks_block
  · exact forall_mem_modifyLast h fun e ⟨hw, ht⟩ => ⟨hw.trimmedEnd, ht.trimEnd⟩
  · exact forall_mem_modifyLast hi fun e hi => hi

/-- A written document is read back without fault: each subtitle with its index, its times and its
text, but for blanks at the end of the last text. -/
theorem parse_render (d : Document) (filename : Option Text)
    (h : ∀ e ∈ d.subtitles,
      e.Writable ∧ e.text.NoBlankLine ∧ e.index < 10 ^ maxNumeralDigits) :
    ∃ d', parse d.render filename = .ok d' ∧ d'.filename = filename ∧
      d'.Holds ((d.subtitles.map Entry.cue).modifyLast Cue.trimmedEnd) := by
  have hread := parse_render_eq filename (fun e he => ⟨(h e he).1, (h e he).2.1⟩)
    fun e he => (h e he).2.2
  refine ⟨_, hread, rfl, ?_⟩
  rw [← map_cue_modifyLast]
  exact holds_reread _ _

/-- A document with an arrow in a text, a text that is empty, and blanks around the last one. -/
def oddTexts : Document where
  entries := [
    { index := 7, start := 1000, stop := 500, text := "2\n00:00:01,000 --> x\n-->".toList },
    .ofMalformed 2 "lost".toList "Block has too few lines",
    { index := 7, start := 0, stop := 359999999, text := [] },
    { index := 1, start := 0, stop := 0, text := "\t- a \nb \u3000".toList }]

theorem parse_render_oddTexts :
    (∀ e ∈ oddTexts.subtitles,
      e.Writable ∧ e.text.NoBlankLine ∧ e.index < 10 ^ maxNumeralDigits) ∧
    ∃ d', parse oddTexts.render none = .ok d' ∧ d'.filename = none ∧
      d'.Holds [
        ⟨7, 1000, 500, "2\n00:00:01,000 --> x\n-->".toList⟩,
        ⟨7, 0, 359999999, []⟩,
        ⟨1, 0, 0, "\t- a \nb".toList⟩] := by
  have h : ∀ e ∈ oddTexts.subtitles,
      e.Writable ∧ e.text.NoBlankLine ∧ e.index < 10 ^ maxNumeralDigits := by
    intro e he
    have hs : oddTexts.subtitles = [
        { index := 7, start := 1000, stop := 500, text := "2\n00:00:01,000 --> x\n-->".toList },
        { index := 7, start := 0, stop := 359999999, text := [] },
        { index := 1, start := 0, stop := 0, text := "\t- a \nb \u3000".toList }] := rfl
    rw [hs] at he
    simp only [List.mem_cons, List.not_mem_nil, or_false] at he
    rcases he with rfl | rfl | rfl
    · exact ⟨by constructor <;> decide, by decide, Numeral.lt_pow_maxNumeralDigits (by decide)⟩
    · exact ⟨by constructor <;> decide, by decide, Numeral.lt_pow_maxNumeralDigits (by decide)⟩
    · exact ⟨by constructor <;> decide, by decide, Numeral.lt_pow_maxNumeralDigits (by decide)⟩
  exact ⟨h, parse_render oddTexts none h⟩

end Document

end CueCheck
