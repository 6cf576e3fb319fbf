import CueCheck.Proofs.IssueKinds
import Mathlib.Data.List.Chain

/-!
Order of the subtitles: checks that compare neighbours only tell whether all subtitles follow one
another without overlap.
-/

namespace CueCheck

namespace Entry

/-- A subtitle is over when another one starts, and both last for a time. -/
structure Precedes (a b : Entry) : Prop where
  lasts : a.start < a.stop
  ended : a.stop ≤ b.start
  next_lasts : b.start < b.stop

theorem Precedes.trans {a b c : Entry} (hab : a.Precedes b) (hbc : b.Precedes c) :
    a.Precedes c := by
  have h₁ := hab.ended
  have h₂ := hbc.lasts
  have h₃ := hbc.ended
  exact ⟨hab.lasts, by omega, hbc.next_lasts⟩

instance : Trans Precedes Precedes Precedes := ⟨Precedes.trans⟩

theorem precedes_iff {a b : Entry} :
    a.Precedes b ↔ a.start < a.stop ∧ a.stop ≤ b.start ∧ b.start < b.stop :=
  ⟨fun h => ⟨h.lasts, h.ended, h.next_lasts⟩, fun ⟨h₁, h₂, h₃⟩ => ⟨h₁, h₂, h₃⟩⟩

end Entry

section Neighbours

variable {es : List Entry}

/-- Among subtitles that last, the neighbours do not overlap exactly when each precedes the next. -/
theorem isChain_precedes_iff (h : ∀ e ∈ es, e.malformed = false ∧ e.start < e.stop) :
    es.IsChain Entry.Precedes ↔ ∀ p ∈ es.zip es.tail, ¬ p.1.overlaps (some p.2) = true := by
  induction es with
  | nil => simp
  | cons e es ih =>
    have hes := ih fun e he => h e (List.mem_cons_of_mem _ he)
    cases es with
    | nil => simp
    | cons next es =>
      obtain ⟨hm, hlasts⟩ := h e List.mem_cons_self
      obtain ⟨hm', hlasts'⟩ := h next (List.mem_cons_of_mem _ List.mem_cons_self)
      have hfirst : e.Precedes next ↔ ¬ e.overlaps (some next) = true := by
        simp only [Entry.overlaps, hm, hm', Bool.not_false, Bool.true_and, decide_eq_true_eq,
          Int.not_lt]
        exact ⟨Entry.Precedes.ended, fun hover => ⟨hlasts, hover, hlasts'⟩⟩
      have hzip : (e :: next :: es).zip (e :: next :: es).tail =
          (e, next) :: (next :: es).zip (next :: es).tail := rfl
      rw [List.isChain_cons_cons, hes, hfirst, hzip, List.forall_mem_cons]

/-- To precede the next neighbour is to precede all that follow. -/
theorem isChain_precedes_iff_getElem? :
    es.IsChain Entry.Precedes ↔
      ∀ (i j : Nat) (a b : Entry), i < j → es[i]? = some a → es[j]? = some b → a.Precedes b := by
  rw [List.isChain_iff_pairwise, List.pairwise_iff_getElem]
  constructor
  · intro h i j a b hij ha hb
    obtain ⟨hi, rfl⟩ := List.getElem?_eq_some_iff.1 ha
    obtain ⟨hj, rfl⟩ := List.getElem?_eq_some_iff.1 hb
    exact h i j hi hj hij
  · intro h i j hi hj hij
    exact h i j _ _ hij (List.getElem?_eq_getElem hi) (List.getElem?_eq_getElem hj)

theorem count_syntactic_eq_zero_iff {rules : Rules} :
    (issueKinds rules es).count .syntactic = 0 ↔
      ∀ e ∈ es, e.malformed = false ∧ e.start < e.stop := by
  rw [count_syntactic, List.countP_eq_zero]
  simp

end Neighbours

namespace Document

/-- An analysis counts no syntactic issue and no overlap exactly when no entry is malformed, each
subtitle lasts, and each precedes all later ones, not only the next. -/
theorem analyze_clean_iff {rules : Rules} {d : Document} {counts : IssueCounts}
    (h : (d.analyze rules).2 = .ok counts) :
    counts.syntactic = 0 ∧ counts.overlap = 0 ↔
      (∀ e ∈ d.entries, e.malformed = false ∧ e.start < e.stop) ∧
        ∀ (i j : Nat) (a b : Entry), i < j → d.entries[i]? = some a → d.entries[j]? = some b →
          a.start < a.stop ∧ a.stop ≤ b.start ∧ b.start < b.stop := by
  have hsyntactic : counts.syntactic = 0 ↔
      ∀ e ∈ d.entries, e.malformed = false ∧ e.start < e.stop := by
    rw [← count_syntactic_eq_zero_iff, ← get_of_analyze h]
    rfl
  have hoverlap : counts.overlap = 0 ↔
      ∀ p ∈ d.entries.zip d.entries.tail, ¬ p.1.overlaps (some p.2) = true := by
    rw [← List.countP_eq_zero, ← count_overlap rules, ← get_of_analyze h]
    rfl
  rw [hsyntactic, hoverlap]
  refine and_congr_right fun hlast => ?_
  rw [← isChain_precedes_iff hlast, isChain_precedes_iff_getElem?]
  simp only [Entry.precedes_iff]

/-- Three subtitles, the second of which starts as the first ends. -/
def touching : Document where
  entries := [
    { index := 1, start := 1000, stop := 2000, text := "One".toList },
    { index := 2, start := 2000, stop := 9500, text := [] },
    { index := 3, start := 9600, stop := 9700, text := "Three".toList }]

theorem analyze_clean_touching :
    ∃ counts, (touching.analyze {}).2 = .ok counts ∧ counts.total = 4 ∧
      (counts.syntactic = 0 ∧ counts.overlap = 0) ∧
      ∀ (i j : Nat) (a b : Entry), i < j → touching.entries[i]? = some a →
        touching.entries[j]? = some b →
          a.start < a.stop ∧ a.stop ≤ b.start ∧ b.start < b.stop := by
  have h : (touching.analyze {}).2 =
      .ok { shortDuration := 1, longDuration := 1, readingSpeed := 1, formatting := 1 } := by
    decide +kernel
  have hclean : (0 : Nat) = 0 ∧ (0 : Nat) = 0 := ⟨rfl, rfl⟩
  exact ⟨_, h, rfl, hclean, ((analyze_clean_iff h).1 hclean).2⟩

end Document

end CueCheck
