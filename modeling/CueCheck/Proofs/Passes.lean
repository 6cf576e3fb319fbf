import CueCheck.Fix
import CueCheck.Proofs.Lines

/-!
Passes over the entries: what holds of each entry before a check or a fix holds after it.
-/

namespace CueCheck

namespace Text

theorem afterClosing?_sublist {closing : Char} {t later : Text}
    (h : afterClosing? closing t = some later) : later.Sublist t := by
  induction t with
  | nil => cases h
  | cons c t ih =>
    rw [afterClosing?] at h
    split at h
    · injection h with h
      rw [h]
      exact List.sublist_cons_self _ _
    · split at h
      · cases h
      · exact (ih h).cons _

theorem removeSpans_sublist (opening closing : Char) (t : Text) :
    (removeSpans opening closing t).Sublist t := by
  fun_induction removeSpans opening closing t with
  | case1 => exact List.Sublist.refl _
  | case2 t later hlater ih => exact (ih.trans (afterClosing?_sublist hlater)).cons _
  | case3 t hnone ih => exact ih.cons_cons _
  | case4 c t hc ih => exact ih.cons_cons _

end Text

open Text

namespace Entry

theorem withoutAnnotations_sublist (t : Text) : (withoutAnnotations t).Sublist t :=
  ((trim_sublist _).trans (removeSpans_sublist _ _ _)).trans (removeSpans_sublist _ _ _)

theorem withoutMarkup_sublist (t : Text) : (withoutMarkup t).Sublist t :=
  (trim_sublist _).trans (removeSpans_sublist _ _ _)

/-- The entry without its issues. -/
def bare (e : Entry) : Entry := { e with issues := [] }

end Entry

section Passes

variable {P Q : Entry → Prop} {es : List Entry}

theorem forall_checkEntries (rules : Rules)
    (hP : ∀ e issues, e.malformed = false → P e → P { e with issues })
    (h : ∀ e ∈ es, P e) : ∀ e ∈ (checkEntries rules es).1, P e := by
  induction es with
  | nil => exact h
  | cons e es ih =>
    have he := h e List.mem_cons_self
    have hes := ih fun e he => h e (List.mem_cons_of_mem _ he)
    rw [checkEntries]
    split
    · exact List.forall_mem_cons.2 ⟨he, hes⟩
    · next hm =>
      split
      · exact h
      · exact List.forall_mem_cons.2 ⟨hP e _ (by simpa using hm) he, hes⟩

/-- A pass of checks renews issues only, whether it succeeds or not. -/
theorem map_bare_checkEntries (rules : Rules) (es : List Entry) :
    (checkEntries rules es).1.map Entry.bare = es.map Entry.bare := by
  induction es with
  | nil => rfl
  | cons e es ih =>
    rw [checkEntries]
    split
    · rw [List.map_cons, List.map_cons, ih]
    · split
      · rfl
      · rw [List.map_cons, List.map_cons, ih]
        rfl

/-- Checks do not look at the issues that are there already. -/
theorem checkEntries_map_bare (rules : Rules) (es : List Entry) :
    (checkEntries rules (es.map Entry.bare)).2 = (checkEntries rules es).2 := by
  induction es with
  | nil => rfl
  | cons e es ih =>
    have hcheck : e.bare.check rules (es.map Entry.bare).head? = e.check rules es.head? := by
      cases es <;> rfl
    rw [List.map_cons, checkEntries, checkEntries, hcheck]
    cases hm : e.malformed with
    | true => simp [Entry.bare, hm, ih]
    | false => cases e.check rules es.head? <;> simp [Entry.bare, hm, ih]

theorem getElem?_checkEntries_of_malformed (rules : Rules) {i : Nat} {e : Entry}
    (he : es[i]? = some e) (hm : e.malformed = true) : (checkEntries rules es).1[i]? = some e := by
  induction es generalizing i with
  | nil => cases he
  | cons first es ih =>
    rw [checkEntries]
    cases i with
    | zero =>
      injection he with he
      rw [he, if_pos hm]
      rfl
    | succ i =>
      have hrest := ih he
      split
      · exact hrest
      · split
        · exact he
        · exact hrest

/-- Editing texts goes subtitle by subtitle. -/
theorem editTexts_fst (edit : Text → Text) (es : List Entry) :
    (editTexts edit es).1 =
      es.map fun e => if e.malformed then e else { e with text := edit e.text } := by
  induction es with
  | nil => rfl
  | cons e es ih =>
    rw [editTexts, List.map_cons, ← ih]
    cases e.malformed <;> rfl

theorem forall_editTexts {edit : Text → Text} (hm : ∀ e, e.malformed = true → P e → Q e)
    (hP : ∀ e, e.malformed = false → P e → Q { e with text := edit e.text })
    (h : ∀ e ∈ es, P e) : ∀ e ∈ (editTexts edit es).1, Q e := by
  intro e he
  rw [editTexts_fst] at he
  obtain ⟨e', he', rfl⟩ := List.mem_map.1 he
  split
  · next hmal => exact hm e' hmal (h e' he')
  · next hmal => exact hP e' (by simpa using hmal) (h e' he')

theorem resolveTiming_cons_fst (rules : Rules) (e : Entry) (es : List Entry) :
    (resolveTiming rules (e :: es)).1 =
      (if e.malformed then e else { e with stop := e.fixedStop rules es.head? }) ::
        (resolveTiming rules es).1 := by
  rw [resolveTiming]
  cases e.malformed <;> rfl

theorem forall_resolveTiming {rules : Rules} (hm : ∀ e, e.malformed = true → P e → Q e)
    (hP : ∀ e next?, e.malformed = false → P e → (∀ next ∈ next?, P next) →
      Q { e with stop := e.fixedStop rules next? })
    (h : ∀ e ∈ es, P e) : ∀ e ∈ (resolveTiming rules es).1, Q e := by
  induction es with
  | nil => exact fun e he => absurd he List.not_mem_nil
  | cons e es ih =>
    have he := h e List.mem_cons_self
    have htail : ∀ e ∈ es, P e := fun e he => h e (List.mem_cons_of_mem _ he)
    rw [resolveTiming_cons_fst]
    refine List.forall_mem_cons.2 ⟨?_, ih htail⟩
    split
    · next hmal => exact hm e hmal he
    · next hmal =>
      have hnext : ∀ next ∈ es.head?, P next := fun next hn => htail next (List.mem_of_head? hn)
      exact hP e _ (by simpa using hmal) he hnext

end Passes

/-- A fix gives a subtitle another end or a part of its text, and leaves malformed blocks. -/
theorem Fix.forall_run {P : Entry → Prop} {rules : Rules} {d : Document}
    (hstop : ∀ e next?, e.malformed = false → P e → (∀ next ∈ next?, P next) →
      P { e with stop := e.fixedStop rules next? })
    (htext : ∀ e text, e.malformed = false → P e → text.Sublist e.text → P { e with text })
    (h : ∀ e ∈ d.entries, P e) (fix : Fix) : ∀ e ∈ (fix.run rules d).1.entries, P e := by
  have hm : ∀ e : Entry, e.malformed = true → P e → P e := fun _ _ he => he
  cases fix with
  | resolveTiming => exact forall_resolveTiming hm hstop h
  | stripAnnotations =>
    exact forall_editTexts hm
      (fun e hmal he => htext e _ hmal he (Entry.withoutAnnotations_sublist e.text)) h
  | stripMarkup =>
    exact forall_editTexts hm
      (fun e hmal he => htext e _ hmal he (Entry.withoutMarkup_sublist e.text)) h

end CueCheck
