import CueCheck.Proofs.Answers
import CueCheck.Proofs.MonotoneRounding
import CueCheck.Proofs.NormalForm
import CueCheck.Proofs.OrderedCues
import CueCheck.Proofs.RepeatedFixes

/-!
Overlaps across malformed blocks: a report counts the overlaps of entries that follow one another,
and a file is written without its malformed blocks, so that two subtitles with such blocks between
them may overlap in a file that is reported as free of overlaps.
-/

namespace CueCheck

/-- A subtitle is over when another one starts. -/
def Entry.EndsBefore (e next : Entry) : Prop := e.stop ≤ next.start

/-- Two subtitles in a list of entries with nothing but malformed blocks between them. -/
structure Adjacent (es : List Entry) (i j : Nat) (e next : Entry) : Prop where
  lt : i < j
  getElem?_fst : es[i]? = some e
  getElem?_snd : es[j]? = some next
  subtitle : e.malformed = false
  next_subtitle : next.malformed = false
  between : ∀ (k : Nat) (lost : Entry), i < k → k < j → es[k]? = some lost → lost.malformed = true

section Adjacent

variable {es : List Entry} {i j : Nat} {e next first : Entry}

theorem adjacent_cons_succ :
    Adjacent (first :: es) (i + 1) (j + 1) e next ↔ Adjacent es i j e next := by
  constructor
  · intro h
    refine ⟨Nat.lt_of_succ_lt_succ h.lt, h.getElem?_fst, h.getElem?_snd, h.subtitle,
      h.next_subtitle, fun k lost hik hkj hk => ?_⟩
    exact h.between (k + 1) lost (Nat.succ_lt_succ hik) (Nat.succ_lt_succ hkj) hk
  · intro h
    refine ⟨Nat.succ_lt_succ h.lt, h.getElem?_fst, h.getElem?_snd, h.subtitle, h.next_subtitle, ?_⟩
    intro k lost hik hkj hk
    cases k with
    | zero => cases hik
    | succ k => exact h.between k lost (Nat.lt_of_succ_lt_succ hik) (Nat.lt_of_succ_lt_succ hkj) hk

theorem exists_adjacent_cons_iff :
    (∃ j, Adjacent (first :: es) 0 (j + 1) e next) ↔
      first = e ∧ e.malformed = false ∧ es.find? (!·.malformed) = some next := by
  rw [List.find?_eq_some_iff_getElem]
  constructor
  · rintro ⟨j, h⟩
    obtain ⟨hj, hnext⟩ := List.getElem?_eq_some_iff.1 h.getElem?_snd
    refine ⟨Option.some.inj h.getElem?_fst, h.subtitle, by rw [h.next_subtitle]; rfl, j,
      Nat.lt_of_succ_lt_succ hj, hnext, fun k hk => ?_⟩
    have hes : k < es.length := Nat.lt_trans hk (Nat.lt_of_succ_lt_succ hj)
    rw [h.between (k + 1) es[k] (Nat.succ_pos k) (Nat.succ_lt_succ hk)
      (List.getElem?_eq_getElem hes)]
    rfl
  · rintro ⟨rfl, hm, hn, j, hj, rfl, hbetween⟩
    refine ⟨j, Nat.succ_pos j, rfl, List.getElem?_eq_getElem hj, hm, by simpa using hn, ?_⟩
    intro k lost hk hkj hlost
    cases k with
    | zero => cases hk
    | succ k =>
      have hes : k < es.length := Nat.lt_trans (Nat.lt_of_succ_lt_succ hkj) hj
      have hmal := hbetween k (Nat.lt_of_succ_lt_succ hkj)
      rw [← Option.some.inj ((List.getElem?_eq_getElem hes).symm.trans hlost)]
      simpa using hmal

theorem forall_adjacent_cons_iff {R : Entry → Entry → Prop} :
    (∀ i j e next, Adjacent (first :: es) i j e next → R e next) ↔
      (first.malformed = false → ∀ next ∈ es.find? (!·.malformed), R first next) ∧
        ∀ i j e next, Adjacent es i j e next → R e next := by
  constructor
  · intro h
    refine ⟨fun hm next hnext => ?_, fun i j e next he => ?_⟩
    · obtain ⟨j, he⟩ := exists_adjacent_cons_iff.2 ⟨rfl, hm, hnext⟩
      exact h _ _ _ _ he
    · exact h _ _ _ _ (adjacent_cons_succ.2 he)
  · rintro ⟨hfirst, hrest⟩ i j e next he
    cases j with
    | zero => cases he.lt
    | succ j =>
      cases i with
      | zero =>
        obtain ⟨rfl, hm, hnext⟩ := exists_adjacent_cons_iff.1 ⟨j, he⟩
        exact hfirst hm next hnext
      | succ i => exact hrest i j e next (adjacent_cons_succ.1 he)

/-- The subtitles by themselves are a chain if those are related that only malformed blocks
divide. -/
theorem isChain_subtitles_iff {R : Entry → Entry → Prop} :
    (es.filter (!·.malformed)).IsChain R ↔
      ∀ i j e next, Adjacent es i j e next → R e next := by
  induction es with
  | nil =>
    refine ⟨fun _ i j e next h => ?_, fun _ => List.isChain_nil⟩
    cases h.getElem?_fst
  | cons first es ih =>
    rw [forall_adjacent_cons_iff, ← ih]
    cases hm : first.malformed with
    | true => simp [hm]
    | false => simp [hm, List.isChain_cons, List.head?_filter]

/-- A report counts no overlap exactly when no two subtitles in a row overlap. -/
theorem count_overlap_eq_zero_iff {rules : Rules} :
    (issueKinds rules es).count .overlap = 0 ↔
      ∀ i e next, Adjacent es i (i + 1) e next → e.EndsBefore next := by
  rw [count_overlap, List.countP_eq_zero]
  constructor
  · intro h i e next he
    have hmem : (e, next) ∈ es.zip es.tail := by
      apply List.mem_of_getElem? (i := i)
      rw [List.getElem?_zip_eq_some, List.getElem?_tail]
      exact ⟨he.getElem?_fst, he.getElem?_snd⟩
    by_contra hlt
    exact h _ hmem (Entry.overlaps_iff.2 ⟨he.subtitle, he.next_subtitle, Int.not_le.1 hlt⟩)
  · rintro h ⟨e, next⟩ hmem hover
    obtain ⟨i, hi⟩ := List.getElem?_of_mem hmem
    rw [List.getElem?_zip_eq_some, List.getElem?_tail] at hi
    obtain ⟨hm, hn, hlt⟩ := Entry.overlaps_iff.1 hover
    have hle := h i e next ⟨Nat.lt_succ_self i, hi.1, hi.2, hm, hn, fun k lost hik hki => by omega⟩
    exact absurd hlt (Int.not_lt.2 hle)

/-- Without malformed blocks, a report without overlaps is one on subtitles in a chain. -/
theorem count_overlap_eq_zero_iff_isChain {rules : Rules} (h : ∀ e ∈ es, e.malformed = false) :
    (issueKinds rules es).count .overlap = 0 ↔ es.IsChain Entry.EndsBefore := by
  have hall : es.filter (!·.malformed) = es := List.filter_eq_self.2 fun e he => by rw [h e he]; rfl
  have hchain : es.IsChain Entry.EndsBefore ↔
      ∀ i j e next, Adjacent es i j e next → e.EndsBefore next := by
    rw [← isChain_subtitles_iff, hall]
  rw [hchain, count_overlap_eq_zero_iff]
  refine ⟨fun hnext i j e next he => ?_, fun hnext i e next he => hnext i (i + 1) e next he⟩
  by_cases hj : j = i + 1
  · subst hj
    exact hnext i e next he
  · -- An entry between the two would be a malformed block.
    have hij := he.lt
    obtain ⟨hlen, -⟩ := List.getElem?_eq_some_iff.1 he.getElem?_snd
    have hlost := he.between (i + 1) es[i + 1] (by omega) (by omega) (List.getElem?_eq_getElem _)
    rw [h _ (List.getElem_mem _)] at hlost
    cases hlost

end Adjacent

section Retiming

variable {rules : Rules} {es : List Entry} {i j : Nat}

/-- Where malformed blocks divide two subtitles, the first has ended and has lasted the shortest
duration when the second starts. -/
def ClearAcross (rules : Rules) (es : List Entry) : Prop :=
  ∀ i j e next, Adjacent es i j e next → i + 1 < j →
    max e.stop (e.start + rules.minDuration) ≤ next.start

/-- The timing fix leaves the malformed blocks where they are. -/
theorem adjacent_resolveTiming_iff {e' next' : Entry} :
    Adjacent (resolveTiming rules es).1 i j e' next' ↔
      ∃ e next, Adjacent es i j e next ∧ e' = e.fixed rules .resolveTiming es[i + 1]? ∧
        next' = next.fixed rules .resolveTiming es[j + 1]? := by
  constructor
  · rintro ⟨hij, he, hn, hm, hm', hbetween⟩
    rw [getElem?_resolveTiming, Option.map_eq_some_iff] at he hn
    obtain ⟨e, he, rfl⟩ := he
    obtain ⟨next, hn, rfl⟩ := hn
    rw [Entry.fixed_malformed] at hm hm'
    refine ⟨e, next, ⟨hij, he, hn, hm, hm', fun k lost hik hkj hk => ?_⟩, rfl, rfl⟩
    have hlost := hbetween k (lost.fixed rules .resolveTiming es[k + 1]?) hik hkj
      (by rw [getElem?_resolveTiming, hk]; rfl)
    rwa [Entry.fixed_malformed] at hlost
  · rintro ⟨e, next, he, rfl, rfl⟩
    refine ⟨he.lt, ?_, ?_, ?_, ?_, fun k lost' hik hkj hk => ?_⟩
    · rw [getElem?_resolveTiming, he.getElem?_fst]
      rfl
    · rw [getElem?_resolveTiming, he.getElem?_snd]
      rfl
    · rw [Entry.fixed_malformed, he.subtitle]
    · rw [Entry.fixed_malformed, he.next_subtitle]
    · rw [getElem?_resolveTiming, Option.map_eq_some_iff] at hk
      obtain ⟨lost, hk, rfl⟩ := hk
      rw [Entry.fixed_malformed, he.between k lost hik hkj hk]

/-- Before a malformed block, a subtitle is stretched if need be and never cut. -/
theorem stop_fixed_of_between {e next : Entry} (he : Adjacent es i j e next) (hij : i + 1 < j) :
    (e.fixed rules .resolveTiming es[i + 1]?).stop = max e.stop (e.start + rules.minDuration) := by
  obtain ⟨hlen, -⟩ := List.getElem?_eq_some_iff.1 he.getElem?_snd
  have hlost : es[i + 1]? = some es[i + 1] := List.getElem?_eq_getElem (by omega)
  have hmal := he.between (i + 1) _ (Nat.lt_succ_self i) hij hlost
  have hclear : e.overlaps es[i + 1]? = false := by
    rw [hlost, Entry.overlaps, hmal, he.subtitle]
    rfl
  rw [Entry.fixed_of_subtitle he.subtitle]
  change e.fixedStop rules es[i + 1]? = _
  rw [Entry.fixedStop, Entry.clearedStop_of_not_overlaps hclear]
  split <;> omega

/-- If the timing fix leaves no overlap to report, then its subtitles follow one another exactly
when those across malformed blocks did. -/
theorem isChain_resolveTiming_iff
    (h : (issueKinds rules (resolveTiming rules es).1).count .overlap = 0) :
    ((resolveTiming rules es).1.filter (!·.malformed)).IsChain Entry.EndsBefore ↔
      ClearAcross rules es := by
  rw [count_overlap_eq_zero_iff] at h
  rw [isChain_subtitles_iff]
  constructor
  · intro hall i j e next he hij
    have hle := hall i j _ _ (adjacent_resolveTiming_iff.2 ⟨e, next, he, rfl, rfl⟩)
    rwa [Entry.EndsBefore, stop_fixed_of_between he hij, Entry.fixed_start] at hle
  · intro hclear i j e' next' he'
    by_cases hj : j = i + 1
    · subst hj
      exact h i e' next' he'
    · obtain ⟨e, next, he, rfl, rfl⟩ := adjacent_resolveTiming_iff.1 he'
      have hlt := he.lt
      have hij : i + 1 < j := by omega
      rw [Entry.EndsBefore, stop_fixed_of_between he hij, Entry.fixed_start]
      exact hclear i j e next he hij

end Retiming

/-- When a subtitle starts and ends. -/
def Entry.times (e : Entry) : Int × Int := (e.start, e.stop)

namespace Document

variable {rules : Rules} {d : Document} {target : Option Text}

theorem times_lt_of_map {limit : Int} {times : List (Int × Int)}
    (h : d.subtitles.map Entry.times = times) (ht : ∀ t ∈ times, t.1 < limit ∧ t.2 < limit) :
    ∀ e ∈ d.subtitles, e.start < limit ∧ e.stop < limit := by
  rw [← h] at ht
  exact List.forall_mem_map.1 ht

theorem map_times_rewritten (target : Option Text) (d : Document) :
    (d.rewritten target).entries.map Entry.times = d.subtitles.map Entry.times := by
  rw [rewritten, List.map_map]
  exact map_modifyLast_trimmedEnd (fun _ => rfl) d.subtitles

/-- Once a document has been written and read, all its subtitles are compared with the next. -/
theorem count_overlap_rewritten_iff :
    (issueKinds rules (d.rewritten target).entries).count .overlap = 0 ↔
      d.subtitles.IsChain Entry.EndsBefore := by
  have hm : ∀ e ∈ (d.rewritten target).entries, e.malformed = false := by
    intro e he
    obtain ⟨e', -, rfl⟩ := List.mem_map.1 he
    rfl
  let after (a b : Int × Int) : Prop := a.2 ≤ b.1
  have htimes (es : List Entry) : es.IsChain Entry.EndsBefore ↔
      (es.map Entry.times).IsChain after := (List.isChain_map (R := after) Entry.times).symm
  rw [count_overlap_eq_zero_iff_isChain hm, htimes, map_times_rewritten, ← htimes]

/-- A document that can be analyzed can be analyzed once it has been written and read. -/
theorem exists_analyze_rewritten {counts : IssueCounts} (h : (d.analyze rules).2 = .ok counts)
    (target : Option Text) : ∃ counts, ((d.rewritten target).analyze rules).2 = .ok counts := by
  have hchecked : ∀ e ∈ d.subtitles, ∃ issues, e.check rules none = .ok issues := by
    intro e he
    obtain ⟨hmem, hm⟩ := mem_subtitles.1 he
    exact checkEntries_eq_ok_iff.1 ⟨counts, h⟩ e hmem hm
  have htrimmed := forall_mem_modifyLast hchecked fun e he =>
    Entry.check_eq_ok_of_le (Text.trimEnd_sublist e.text).length_le he
  refine checkEntries_eq_ok_iff.2 fun e he _ => ?_
  obtain ⟨e', he', rfl⟩ := List.mem_map.1 he
  exact htrimmed e' he'

/-- The timing fix keeps subtitles writable that leave room for the shortest duration. -/
theorem shown_retimed (rules : Rules) (hgap : 0 ≤ rules.overlapGap) (hmin : 0 ≤ rules.minDuration)
    (hmax : rules.minDuration ≤ 3600000)
    (h : ∀ e ∈ d.subtitles, e.Writable ∧ e.text.NoBlankLine)
    (ht : ∀ e ∈ d.subtitles, e.start < 356400000 ∧ e.stop < 356400000) :
    ∀ e ∈ (Fix.resolveTiming.run rules d).1.subtitles, e.Writable ∧ e.text.NoBlankLine := by
  have hsubtitles : ∀ e ∈ d.entries, e.malformed = false → e ∈ d.subtitles :=
    fun e he hm => mem_subtitles.2 ⟨he, hm⟩
  have hall : ∀ e ∈ (resolveTiming rules d.entries).1,
      e.malformed = false → e.Writable ∧ e.text.NoBlankLine := by
    refine forall_resolveTiming ?_ ?_ hsubtitles
    · intro e hm _ hn
      rw [hm] at hn
      cases hn
    · intro e next? hm he _ _
      obtain ⟨hw, htext⟩ := h e (he hm)
      obtain ⟨hstart, hstop⟩ := ht e (he hm)
      have hlow := Entry.le_fixedStop rules e next?
      have hhigh : e.fixedStop rules next? ≤ max e.stop (e.start + rules.minDuration) :=
        Entry.fixedStop_le hgap
      have hstart' := hw.start_nonneg
      have hnonneg : 0 ≤ e.fixedStop rules next? := by omega
      have hlt : e.fixedStop rules next? < 360000000 := by omega
      exact ⟨{ hw with stop_nonneg := hnonneg, stop_lt := hlt }, htext⟩
  intro e he
  obtain ⟨hmem, hm⟩ := mem_subtitles.1 he
  exact hall e hmem hm

theorem map_index_retimed (rules : Rules) (d : Document) :
    (Fix.resolveTiming.run rules d).1.subtitles.map Entry.index = d.subtitles.map Entry.index := by
  have hes (es : List Entry) : ((resolveTiming rules es).1.filter (!·.malformed)).map Entry.index =
      (es.filter (!·.malformed)).map Entry.index := by
    induction es with
    | nil => rfl
    | cons e es ih =>
      rw [resolveTiming_cons_fst]
      cases hm : e.malformed <;> simp [hm, ih]
  exact hes d.entries

theorem forall_index_retimed_iff {P : Int → Prop} :
    (∀ e ∈ (Fix.resolveTiming.run rules d).1.subtitles, P e.index) ↔
      ∀ e ∈ d.subtitles, P e.index := by
  have hmap (es : List Entry) : (∀ e ∈ es, P e.index) ↔ ∀ i ∈ es.map Entry.index, P i :=
    List.forall_mem_map.symm
  rw [hmap, map_index_retimed, ← hmap]

end Document

namespace Service

variable {settings : Settings} {s : Submission} {d : Document} {r : Response}

/-- Under the rules that apply by default, a fix of the times that is reported to leave no overlap
gives a file without overlaps exactly when subtitles on both sides of malformed blocks leave room.
The file can be read unless an index has too many digits. -/
theorem overlap_reread_iff {body : Body} (hrules : settings.rules = {})
    (hs : readFixing body = .ok s) (hfixes : s.fixes = [.resolveTiming])
    (hd : Document.parse s.content none = .ok d)
    (ht : ∀ e ∈ d.subtitles, e.start < 356400000 ∧ e.stop < 356400000)
    (h : Endpoint.fix.respond settings body = .ok r) (hr : r.status = 200)
    (hreport : r.reportedCount? .overlap = some 0) (target : Option Text) :
    ∃ text, r.fixedText? = some text ∧
      ((∃ d', Document.parse text target = .ok d') ↔
        ∀ e ∈ d.subtitles, e.index < 10 ^ maxNumeralDigits) ∧
      ∀ d', Document.parse text target = .ok d' →
        ∃ counts, (d'.analyze {}).2 = .ok counts ∧
          (counts.overlap = 0 ↔ ClearAcross {} d.entries) := by
  rw [Endpoint.respond, hs, checked] at h
  rw [← filename_of_readFixing hs] at hd
  obtain ⟨counts, hcounts, htext, hshown⟩ := shows_of_single_fix hfixes hd h hr
  rw [hrules] at hcounts htext
  rw [hshown, Option.some.injEq, Int.natCast_eq_zero, Document.get_of_analyze hcounts] at hreport
  have hwritable := Document.shown_of_parse hd fun e he => by have := ht e he; omega
  have hretimed := Document.shown_retimed {} (by decide) (by decide) (by decide)
    hwritable ht
  refine ⟨_, htext, ?_, ?_⟩
  · simp only [Document.parse_render_eq_ok_iff hretimed, exists_eq_left]
    exact Document.forall_index_retimed_iff (P := (· < 10 ^ maxNumeralDigits))
  · intro d' hd'
    obtain ⟨rfl, -⟩ := (Document.parse_render_eq_ok_iff hretimed).1 hd'
    obtain ⟨counts', hcounts'⟩ := Document.exists_analyze_rewritten hcounts target
    refine ⟨counts', hcounts', ?_⟩
    have hget : counts'.overlap = _ := Document.get_of_analyze hcounts' .overlap
    rw [hget, Document.count_overlap_rewritten_iff]
    exact isChain_resolveTiming_iff hreport

/-- A request for the times of subtitles to be fixed. -/
def retiming (content : Text) : Body :=
  .json (.obj [("srt_content", .str content),
    ("operations", .arr [.ofString Fix.resolveTiming.name])])

/-- What the analysis finds in the fixed text of a response. -/
def recounted (r : Response) : Option (Except Failure (Except Failure IssueCounts)) :=
  r.fixedText?.map fun text => (Document.parse text none).map fun d => (d.analyze {}).2

/-- Of two neighbours that overlap the first is cut, and the second is stretched up to the subtitle
beyond a malformed block. -/
theorem overlap_reread_iff_stretched :
    let content := ("1\n00:00:01,000 --> 00:00:05,000\nOne\n\n" ++
      "2\n00:00:04,000 --> 00:00:04,100\nTwo\n\nlost\n\n" ++
      "3\n00:00:05,000 --> 00:00:06,000\nThree").toList
    let s : Submission := { content, fixes := [.resolveTiming], confirmed := false }
    ∃ d r text d' counts, readFixing (retiming content) = .ok s ∧
      Document.parse s.content none = .ok d ∧
      (∀ e ∈ d.subtitles, e.start < 356400000 ∧ e.stop < 356400000) ∧
      Endpoint.fix.respond {} (retiming content) = .ok r ∧ r.status = 200 ∧
      r.reportedCount? .overlap = some 0 ∧ r.fixedText? = some text ∧
      Document.parse text none = .ok d' ∧ (d'.analyze {}).2 = .ok counts ∧
      counts.overlap = 0 ∧ ClearAcross {} d.entries := by
  intro content s
  -- The literal is evaluated once for all facts.
  have hfacts : readFixing (retiming content) = .ok s ∧
      (Document.parse s.content none).map (·.subtitles.map Entry.times) =
        .ok [(1000, 5000), (4000, 4100), (5000, 6000)] ∧
      (Endpoint.fix.respond {} (retiming content)).map
        (fun r => (r.status, r.reportedCount? .overlap, recounted r)) =
          .ok (200, some 0, some (.ok (.ok {}))) := by decide +kernel
  obtain ⟨hs, hread, hanswer⟩ := hfacts
  obtain ⟨d, hd, htimes⟩ := exists_of_map_eq_ok hread
  obtain ⟨r, hr, hshown⟩ := exists_of_map_eq_ok hanswer
  simp only [Prod.mk.injEq] at hshown
  obtain ⟨hstatus, hreport, hagain⟩ := hshown
  have ht : ∀ e ∈ d.subtitles, e.start < 356400000 ∧ e.stop < 356400000 :=
    Document.times_lt_of_map htimes (by decide)
  obtain ⟨text, htext, -, hoverlap⟩ :=
    overlap_reread_iff rfl hs rfl hd ht hr hstatus hreport none
  rw [recounted, htext] at hagain
  obtain ⟨d', hd', hcounts⟩ := exists_of_map_eq_ok (Option.some.inj hagain)
  obtain ⟨counts, hcounts', hiff⟩ := hoverlap d' hd'
  rw [hcounts'] at hcounts
  injection hcounts with hcounts
  have hzero : counts.overlap = 0 := by rw [hcounts]
  exact ⟨d, r, text, d', counts, hs, hd, ht, hr, hstatus, hreport, htext, hd', hcounts', hzero,
    hiff.1 hzero⟩

/-- Two subtitles that overlap across a malformed block: no overlap is reported, and the file has
one. -/
theorem overlap_reread_divided :
    let content := ("1\n00:00:01,000 --> 00:00:05,000\nOne\n\nlost\n\n" ++
      "2\n00:00:02,000 --> 00:00:03,000\nTwo").toList
    let s : Submission := { content, fixes := [.resolveTiming], confirmed := false }
    ∃ d r text d' counts, readFixing (retiming content) = .ok s ∧
      Document.parse s.content none = .ok d ∧
      (∀ e ∈ d.subtitles, e.start < 356400000 ∧ e.stop < 356400000) ∧
      Endpoint.fix.respond {} (retiming content) = .ok r ∧ r.status = 200 ∧
      r.reportedCount? .overlap = some 0 ∧ r.fixedText? = some text ∧
      Document.parse text none = .ok d' ∧ (d'.analyze {}).2 = .ok counts ∧
      counts.overlap = 1 := by
  intro content s
  have hfacts : readFixing (retiming content) = .ok s ∧
      (Document.parse s.content none).map (·.subtitles.map Entry.times) =
        .ok [(1000, 5000), (2000, 3000)] ∧
      (Endpoint.fix.respond {} (retiming content)).map
        (fun r => (r.status, r.reportedCount? .overlap, recounted r)) =
          .ok (200, some 0, some (.ok (.ok { overlap := 1 }))) := by decide +kernel
  obtain ⟨hs, hread, hanswer⟩ := hfacts
  obtain ⟨d, hd, htimes⟩ := exists_of_map_eq_ok hread
  obtain ⟨r, hr, hshown⟩ := exists_of_map_eq_ok hanswer
  simp only [Prod.mk.injEq] at hshown
  obtain ⟨hstatus, hreport, hagain⟩ := hshown
  have ht : ∀ e ∈ d.subtitles, e.start < 356400000 ∧ e.stop < 356400000 :=
    Document.times_lt_of_map htimes (by decide)
  obtain ⟨text, htext, hagain⟩ := Option.map_eq_some_iff.1 hagain
  obtain ⟨d', hd', hcounts⟩ := exists_of_map_eq_ok hagain
  exact ⟨d, r, text, d', _, hs, hd, ht, hr, hstatus, hreport, htext, hd', hcounts, rfl⟩

end Service

end CueCheck
