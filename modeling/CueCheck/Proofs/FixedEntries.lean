import CueCheck.Proofs.Passes
import CueCheck.Proofs.Results

/-!
Fixes entry by entry: what a fix makes of the entry at each position, and how many entries it
changes.
-/

namespace CueCheck

namespace Fix

/-- The end of a subtitle after a fix, given the entry that follows. -/
def newStop (rules : Rules) (e : Entry) (next? : Option Entry) (fix : Fix) : Int :=
  match fix with
  | resolveTiming => e.fixedStop rules next?
  | stripAnnotations | stripMarkup => e.stop

/-- The text of a subtitle after a fix. -/
def newText (t : Text) (fix : Fix) : Text :=
  match fix with
  | resolveTiming => t
  | stripAnnotations => Entry.withoutAnnotations t
  | stripMarkup => Entry.withoutMarkup t

end Fix

namespace Entry

/-- Where an entry starts, and whether it is malformed. -/
def slot (e : Entry) : Int × Bool := (e.start, e.malformed)

/-- The entry as a fix leaves it, given the entry that follows. -/
def fixed (rules : Rules) (fix : Fix) (e : Entry) (next? : Option Entry) : Entry :=
  if e.malformed then e
  else { e with stop := fix.newStop rules e next?, text := fix.newText e.text }

theorem fixed_of_malformed {rules : Rules} {fix : Fix} {e : Entry} {next? : Option Entry}
    (hm : e.malformed = true) : e.fixed rules fix next? = e := if_pos hm

theorem fixed_of_subtitle {rules : Rules} {fix : Fix} {e : Entry} {next? : Option Entry}
    (hm : e.malformed = false) :
    e.fixed rules fix next? =
      { e with stop := fix.newStop rules e next?, text := fix.newText e.text } :=
  if_neg (by rw [hm]; decide)

variable (rules : Rules) (fix : Fix) (e : Entry) (next? : Option Entry)

@[simp] theorem fixed_start : (e.fixed rules fix next?).start = e.start := by
  rw [fixed]
  split <;> rfl

@[simp] theorem fixed_malformed : (e.fixed rules fix next?).malformed = e.malformed := by
  rw [fixed]
  split <;> rfl

theorem bare_fixed :
    (e.fixed rules fix next?).bare = e.bare.fixed rules fix (next?.map bare) := by
  have hstop : fix.newStop rules e.bare (next?.map bare) = fix.newStop rules e next? := by
    cases fix with
    | resolveTiming => cases next? <;> rfl
    | stripAnnotations => rfl
    | stripMarkup => rfl
  rw [fixed, fixed, hstop]
  cases hm : e.malformed <;> simp [bare, hm]

theorem fixed_eq_self_iff :
    e.fixed rules fix next? = e ↔ e.malformed = true ∨
      fix.newStop rules e next? = e.stop ∧ fix.newText e.text = e.text := by
  cases hm : e.malformed with
  | true => simp [fixed_of_malformed hm]
  | false =>
    rw [fixed_of_subtitle hm]
    constructor
    · intro h
      exact .inr ⟨congrArg Entry.stop h, congrArg Entry.text h⟩
    · rintro (h | ⟨hstop, htext⟩)
      · cases h
      · rw [hstop, htext]

theorem eq_of_bare {e other : Entry} (h : e.bare = other.bare) :
    e = { other with issues := e.issues } := by
  cases e
  cases other
  simp only [bare, mk.injEq] at h
  obtain ⟨rfl, rfl, rfl, rfl, rfl, -, rfl⟩ := h
  rfl

end Entry

section Passes

variable {rules : Rules} {es : List Entry}

theorem getElem?_resolveTiming (rules : Rules) (es : List Entry) (i : Nat) :
    (resolveTiming rules es).1[i]? =
      es[i]?.map fun e => e.fixed rules .resolveTiming es[i + 1]? := by
  induction es generalizing i with
  | nil => rfl
  | cons e es ih =>
    rw [resolveTiming_cons_fst]
    cases i with
    | zero =>
      rw [List.head?_eq_getElem?]
      rfl
    | succ i => exact ih i

theorem eq_setStop_iff {e : Entry} {stop : Int} : e = { e with stop } ↔ stop = e.stop := by
  constructor
  · intro h
    exact (congrArg Entry.stop h).symm
  · rintro rfl
    rfl

theorem eq_setText_iff {e : Entry} {text : Text} : e = { e with text } ↔ text = e.text := by
  constructor
  · intro h
    exact (congrArg Entry.text h).symm
  · rintro rfl
    rfl

/-- A pass that counts each entry which it makes another one counts the differences. -/
theorem snd_eq_countP {pass : List Entry → List Entry × Nat} (hnil : pass [] = ([], 0))
    (hcons : ∀ e es, ∃ e', pass (e :: es) =
      (e' :: (pass es).1, if e = e' then (pass es).2 else (pass es).2 + 1)) (es : List Entry) :
    (pass es).2 = (es.zip (pass es).1).countP fun p => p.1 ≠ p.2 := by
  induction es with
  | nil => rw [hnil, List.zip_nil_left, List.countP_nil]
  | cons e es ih =>
    obtain ⟨e', hpass⟩ := hcons e es
    rw [hpass, List.zip_cons_cons, List.countP_cons, ← ih]
    by_cases he : e = e' <;> simp [he]

theorem resolveTiming_snd (rules : Rules) (es : List Entry) :
    (resolveTiming rules es).2 = (es.zip (resolveTiming rules es).1).countP fun p => p.1 ≠ p.2 := by
  refine snd_eq_countP rfl (fun e es => ?_) es
  rw [resolveTiming]
  by_cases hm : e.malformed = true
  · exact ⟨e, by simp only [hm, if_true]⟩
  · refine ⟨{ e with stop := e.fixedStop rules es.head? }, ?_⟩
    simp only [if_neg hm, eq_setStop_iff]

theorem editTexts_snd (edit : Text → Text) (es : List Entry) :
    (editTexts edit es).2 = (es.zip (editTexts edit es).1).countP fun p => p.1 ≠ p.2 := by
  refine snd_eq_countP rfl (fun e es => ?_) es
  rw [editTexts]
  by_cases hm : e.malformed = true
  · exact ⟨e, by simp only [hm, if_true]⟩
  · refine ⟨{ e with text := edit e.text }, ?_⟩
    simp only [if_neg hm, eq_setText_iff]

end Passes

namespace Fix

/-- What a fix and the analysis after it make of a document. -/
def outcome (rules : Rules) (d : Document) (fix : Fix) : Document × Except Failure IssueCounts :=
  (fix.run rules d).1.analyze rules

variable {rules : Rules} {d : Document}

theorem getElem?_run (rules : Rules) (d : Document) (fix : Fix) (i : Nat) :
    (fix.run rules d).1.entries[i]? =
      d.entries[i]?.map fun e => e.fixed rules fix d.entries[i + 1]? := by
  cases fix with
  | resolveTiming => exact getElem?_resolveTiming rules d.entries i
  | stripAnnotations =>
    change (editTexts Entry.withoutAnnotations d.entries).1[i]? = _
    rw [editTexts_fst, List.getElem?_map]
    rfl
  | stripMarkup =>
    change (editTexts Entry.withoutMarkup d.entries).1[i]? = _
    rw [editTexts_fst, List.getElem?_map]
    rfl

/-- The issues that entries have play no part in what a fix makes of them. -/
theorem map_bare_run (rules : Rules) {d' : Document}
    (h : d.entries.map Entry.bare = d'.entries.map Entry.bare) (fix : Fix) :
    (fix.run rules d).1.entries.map Entry.bare = (fix.run rules d').1.entries.map Entry.bare := by
  have hfixed (d : Document) (i : Nat) : ((fix.run rules d).1.entries.map Entry.bare)[i]? =
      (d.entries.map Entry.bare)[i]?.map
        fun e => e.fixed rules fix (d.entries.map Entry.bare)[i + 1]? := by
    rw [List.getElem?_map, getElem?_run, List.getElem?_map, List.getElem?_map, Option.map_map,
      Option.map_map]
    congr 1
    funext e
    exact Entry.bare_fixed rules fix e _
  apply List.ext_getElem?
  intro i
  rw [hfixed, hfixed, h]

/-- At each position of a fixed and analyzed document stands the fixed entry, with other issues. -/
theorem exists_of_getElem?_outcome {fix : Fix} {i : Nat} {e' : Entry}
    (h : (fix.outcome rules d).1.entries[i]? = some e') :
    ∃ e issues, d.entries[i]? = some e ∧
      e' = { e.fixed rules fix d.entries[i + 1]? with issues } := by
  have hbare := congrArg (·[i]?) (map_bare_checkEntries rules (fix.run rules d).1.entries)
  have hchecked : (checkEntries rules (fix.run rules d).1.entries).1[i]? = some e' := h
  simp only [List.getElem?_map, getElem?_run, hchecked] at hbare
  cases he : d.entries[i]? with
  | none =>
    rw [he] at hbare
    cases hbare
  | some e =>
    rw [he] at hbare
    injection hbare with hbare
    exact ⟨e, e'.issues, rfl, Entry.eq_of_bare hbare⟩

/-- Malformed blocks come through a fix and the analysis after it with the issues they had. -/
theorem getElem?_outcome_of_malformed {fix : Fix} {i : Nat} {e : Entry}
    (he : d.entries[i]? = some e) (hm : e.malformed = true) :
    (fix.outcome rules d).1.entries[i]? = some e := by
  refine getElem?_checkEntries_of_malformed rules ?_ hm
  rw [getElem?_run, he, Option.map_some, Entry.fixed_of_malformed hm]

theorem map_outcome {α : Type} {f : Entry → α} {fix : Fix} (hbare : ∀ e, f e.bare = f e)
    (hfixed : ∀ e next?, f (e.fixed rules fix next?) = f e) :
    (fix.outcome rules d).1.entries.map f = d.entries.map f := by
  have hrun : (fix.run rules d).1.entries.map f = d.entries.map f := by
    apply List.ext_getElem?
    intro i
    rw [List.getElem?_map, List.getElem?_map, getElem?_run, Option.map_map]
    congr 1
    funext e
    exact hfixed e _
  have hanalyzed := congrArg (List.map f) (map_bare_checkEntries rules (fix.run rules d).1.entries)
  rw [List.map_map, List.map_map, show f ∘ Entry.bare = f from funext hbare] at hanalyzed
  exact hanalyzed.trans hrun

theorem map_slot_outcome (rules : Rules) (d : Document) (fix : Fix) :
    (fix.outcome rules d).1.entries.map Entry.slot = d.entries.map Entry.slot := by
  refine map_outcome (fun _ => rfl) fun e next? => ?_
  rw [Entry.slot, Entry.fixed_start, Entry.fixed_malformed, Entry.slot]

/-- The entries that a fix reports as changed are those that it leaves different. -/
theorem run_snd (rules : Rules) (d : Document) (fix : Fix) :
    (fix.run rules d).2 =
      (d.entries.zip (fix.run rules d).1.entries).countP fun p => p.1 ≠ p.2 := by
  cases fix with
  | resolveTiming => exact resolveTiming_snd rules d.entries
  | stripAnnotations => exact editTexts_snd Entry.withoutAnnotations d.entries
  | stripMarkup => exact editTexts_snd Entry.withoutMarkup d.entries

theorem ofName_name (fix : Fix) : ofName fix.name.toList = .ok fix := by
  cases fix <;> rfl

theorem eq_of_permitted {fix other : Fix} {confirmed : Bool}
    (h : permitted fix.name.toList confirmed = .ok other) : other = fix := by
  rw [permitted] at h
  obtain ⟨named, hnamed, h⟩ := exists_of_bind_eq_ok h
  rw [ofName_name] at hnamed
  injection hnamed with hnamed
  subst hnamed
  split at h
  · cases h
  · injection h with h
    exact h.symm

end Fix

theorem Document.applyFix_eq_ok {rules : Rules} {d d' : Document} {fix : Fix} {confirmed : Bool}
    {report : FixReport} (h : d.applyFix rules fix.name.toList confirmed = (d', .ok report)) :
    d' = (fix.outcome rules d).1 ∧
      (fix.outcome rules d).2 = .ok report.counts ∧
      report.fix = fix ∧ report.changed = (fix.run rules d).2 := by
  rw [applyFix] at h
  split at h
  · cases h
  · next other hother =>
    rw [Fix.eq_of_permitted hother] at h
    injection h with hd hreport
    obtain ⟨counts, hcounts, rfl⟩ := exists_of_map_eq_ok hreport
    exact ⟨hd.symm, hcounts, rfl, rfl⟩

end CueCheck
