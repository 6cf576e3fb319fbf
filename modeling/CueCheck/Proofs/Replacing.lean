import CueCheck.Redaction
import Mathlib.Data.List.Basic

/-!
The scan that replaces what a finder finds, as a relation between the text before and after it.
-/

namespace CueCheck.Redaction

/-- What a finder takes is one or more characters at the front of the text. -/
def Consumes (finder : Finder) : Prop :=
  ∀ before t found, finder before t = some found → ∃ taken, taken ≠ [] ∧ t = taken ++ found.rest

/-- A text and what a scan from the left makes of it: characters at which nothing is found stay, and
a credential that is found gives way to its replacement. -/
inductive Rewritten (finder : Finder) : Option Char → Text → Text → Prop where
  | nil {before : Option Char} : Rewritten finder before [] []
  | keep {before : Option Char} {c : Char} {t s : Text} (hnone : finder before (c :: t) = none)
      (hrest : Rewritten finder (some c) t s) : Rewritten finder before (c :: t) (c :: s)
  | replace {before : Option Char} {taken replacement rest s : Text} (hne : taken ≠ [])
      (hfound : finder before (taken ++ rest) = some ⟨replacement, rest⟩)
      (hrest : Rewritten finder taken.getLast? rest s) :
      Rewritten finder before (taken ++ rest) (replacement ++ s)

/-- The character before the rest of a text, with the first character read or still to come. -/
theorem getLast?_cons_or (before : Option Char) (c : Char) (t : Text) :
    (c :: t).getLast?.or before = t.getLast?.or (some c) := by
  rw [List.getLast?_cons]
  cases t.getLast? <;> rfl

theorem getLast?_or_of_ne_nil {t : Text} (h : t ≠ []) (before : Option Char) :
    t.getLast?.or before = t.getLast? := by
  rw [List.getLast?_eq_some_getLast h, Option.some_or]

section Scan

variable {finder : Finder} {before : Option Char} {c : Char} {t s : Text}

theorem lastBefore_append (taken rest : Text) :
    lastBefore (taken ++ rest) rest = taken.getLast? := by
  simp [lastBefore]

@[simp] theorem replaceAll_nil : replaceAll finder before [] = [] := by
  rw [replaceAll]

theorem replaceAll_cons_of_none (h : finder before (c :: t) = none) :
    replaceAll finder before (c :: t) = c :: replaceAll finder (some c) t := by
  rw [replaceAll, h]

theorem replaceAll_append_of_some {taken replacement rest : Text} (hne : taken ≠ [])
    (h : finder before (taken ++ rest) = some ⟨replacement, rest⟩) :
    replaceAll finder before (taken ++ rest) =
      replacement ++ replaceAll finder taken.getLast? rest := by
  cases taken with
  | nil => exact absurd rfl hne
  | cons c taken =>
    have hlast := lastBefore_append (c :: taken) rest
    rw [List.cons_append] at h hlast ⊢
    have hlt : rest.length < (c :: (taken ++ rest)).length := by
      rw [List.length_cons, List.length_append]
      omega
    rw [replaceAll, h]
    simp only
    rw [dif_pos hlt, hlast]

/-- A part at which nothing is found from any place stays, and the scan goes on after it. -/
theorem replaceAll_append_of_none {x : Text}
    (h : ∀ z before, z ≠ [] → z <:+ t → finder before (z ++ x) = none) :
    replaceAll finder before (t ++ x) = t ++ replaceAll finder (t.getLast?.or before) x := by
  induction t generalizing before with
  | nil => rfl
  | cons c t ih =>
    have hnone := h (c :: t) before (List.cons_ne_nil c t) List.suffix_rfl
    rw [List.cons_append] at hnone
    rw [List.cons_append, replaceAll_cons_of_none hnone, getLast?_cons_or,
      ih fun z before hne hz => h z before hne (hz.trans (List.suffix_cons c t))]
    rfl

theorem rewritten_replaceAll (h : Consumes finder) :
    Rewritten finder before t (replaceAll finder before t) := by
  fun_induction replaceAll finder before t with
  | case1 => exact .nil
  | case2 before c t found hfound hlt ih =>
    obtain ⟨taken, hne, heq⟩ := h _ _ _ hfound
    rw [heq] at hfound ih ⊢
    rw [lastBefore_append] at ih ⊢
    exact .replace hne hfound ih
  | case3 before c t found hfound hlt ih =>
    obtain ⟨taken, hne, heq⟩ := h _ _ _ hfound
    have hpos := List.length_pos_iff.2 hne
    rw [heq, List.length_append] at hlt
    omega
  | case4 before c t hnone ih => exact .keep hnone ih

theorem Rewritten.replaceAll_eq (h : Rewritten finder before t s) :
    replaceAll finder before t = s := by
  induction h with
  | nil => exact replaceAll_nil
  | keep hnone _ ih => rw [replaceAll_cons_of_none hnone, ih]
  | replace hne hfound _ ih => rw [replaceAll_append_of_some hne hfound, ih]

theorem replaceAll_eq_iff (h : Consumes finder) :
    replaceAll finder before t = s ↔ Rewritten finder before t s := by
  constructor
  · rintro rfl
    exact rewritten_replaceAll h
  · exact Rewritten.replaceAll_eq

end Scan

end CueCheck.Redaction
