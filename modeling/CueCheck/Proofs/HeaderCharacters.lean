import CueCheck.Download
import CueCheck.Proofs.CodePages

/-!
The characters of the header that offers a file for download: all of it is printable ASCII but for
the control characters of ASCII in the name of the file, each of which stands in it once.
-/

namespace CueCheck

/-- A character of ASCII from the blank to the tilde. -/
def isPrintableAscii (c : Char) : Bool := 0x20 ≤ c.toNat && c.toNat ≤ 0x7E

/-- A control character of ASCII. -/
def isControl (c : Char) : Bool := c.toNat < 0x20 || c.toNat == 0x7F

theorem isPrintableAscii_iff {c : Char} :
    isPrintableAscii c = true ↔ 0x20 ≤ c.toNat ∧ c.toNat ≤ 0x7E := by
  simp [isPrintableAscii]

theorem isControl_iff {c : Char} : isControl c = true ↔ c.toNat < 0x20 ∨ c.toNat = 0x7F := by
  simp [isControl]

theorem Text.Hex.fixed_subset {digits : Text} {c : Char} {width n : Nat}
    (h : c ∈ fixed digits width n) : c ∈ digits ∨ c = '0' := by
  induction width generalizing n with
  | zero => cases h
  | succ width ih =>
    rcases List.mem_append.1 h with h | h
    · exact ih h
    · rw [List.mem_singleton.1 h, List.getD_eq_getElem?_getD]
      cases hdigit : digits[n % 16]? with
      | none => exact .inr rfl
      | some d => exact .inl (List.mem_of_getElem? hdigit)

namespace Download

variable {c : Char} {t t' : Text}

theorem isPlainByte_bounds {b : UInt8} (h : isPlainByte b = true) :
    0x2D ≤ b.toNat ∧ b.toNat ≤ 0x7E := by
  simp only [isPlainByte, Bool.or_eq_true, Bool.and_eq_true, decide_eq_true_eq, beq_iff_eq,
    UInt8.le_iff_toNat_le, ← UInt8.toNat_inj] at h
  simp at h
  omega

theorem isPrintableAscii_of_percentByte {b : UInt8} (h : c ∈ percentByte b) :
    isPrintableAscii c = true := by
  rw [percentByte] at h
  split at h
  · next hplain =>
    have hb := isPlainByte_bounds hplain
    have hcode := (ofNat_eq_iff (by omega)).1 (List.mem_singleton.1 h).symm
    rw [isPrintableAscii_iff]
    omega
  · rcases List.mem_cons.1 h with rfl | h
    · rfl
    · rcases Text.Hex.fixed_subset h with h | rfl
      · have hdigits : Text.Hex.capitalDigits.all isPrintableAscii = true := by decide
        exact List.all_eq_true.1 hdigits c h
      · rfl

theorem isPrintableAscii_of_percentEncode (h : c ∈ percentEncode t) :
    isPrintableAscii c = true := by
  obtain ⟨b, -, hc⟩ := List.mem_flatMap.1 h
  exact isPrintableAscii_of_percentByte hc

/-- Of the characters in the fallback only those of ASCII that do not print are not replaced. -/
theorem asciiFallback_cases (c : Char) :
    isControl c = true ∧ asciiFallback c = c ∨
      isControl c = false ∧ isPrintableAscii (asciiFallback c) = true := by
  rw [asciiFallback]
  by_cases hcontrol : isControl c = true
  · refine .inl ⟨hcontrol, ?_⟩
    rw [isControl_iff] at hcontrol
    have hquote : ¬ ((c = '"' || c = '\\') = true) := by
      simp only [Bool.or_eq_true, decide_eq_true_eq]
      rintro (rfl | rfl)
      · revert hcontrol
        decide
      · revert hcontrol
        decide
    rw [if_neg (by omega), if_neg hquote]
  · refine .inr ⟨(Bool.not_eq_true _).mp hcontrol, ?_⟩
    rw [isControl_iff] at hcontrol
    split
    · rfl
    · split
      · rfl
      · rw [isPrintableAscii_iff]
        omega

theorem filter_asciiFallback (t : Text) :
    (t.map asciiFallback).filter (!isPrintableAscii ·) = t.filter isControl := by
  induction t with
  | nil => rfl
  | cons c t ih =>
    rw [List.map_cons]
    rcases asciiFallback_cases c with ⟨hcontrol, hkept⟩ | ⟨hcontrol, hprints⟩
    · have hprints : isPrintableAscii c = false := by
        rw [isControl_iff] at hcontrol
        rw [Bool.eq_false_iff, Ne, isPrintableAscii_iff]
        omega
      rw [hkept, List.filter_cons_of_pos (by simp [hprints]), List.filter_cons_of_pos hcontrol, ih]
    · rw [List.filter_cons_of_neg (by simp [hprints]), List.filter_cons_of_neg (by simp [hcontrol]),
        ih]

theorem filter_between {p : Char → Bool} {front middle : Text} (hfront : front.filter p = [])
    (hmiddle : middle.filter p = []) (x y : Text) :
    (front ++ x ++ middle ++ y).filter p = x.filter p ++ y.filter p := by
  rw [List.filter_append, List.filter_append, List.filter_append, hfront, hmiddle, List.nil_append,
    List.append_nil]

/-- What does not print in the header are the control characters of the name, in their order. -/
theorem filter_contentDisposition (filename : Text) :
    (contentDisposition filename).filter (!isPrintableAscii ·) = filename.filter isControl := by
  have hencoded : (percentEncode filename).filter (!isPrintableAscii ·) = [] := by
    rw [List.filter_eq_nil_iff]
    intro c hc
    simp [isPrintableAscii_of_percentEncode hc]
  have hfront : "attachment; filename=\"".toList.filter (!isPrintableAscii ·) = [] := by
    decide +kernel
  have hmiddle : "\"; filename*=UTF-8''".toList.filter (!isPrintableAscii ·) = [] := by
    decide +kernel
  have hheader :=
    filter_between hfront hmiddle (filename.map asciiFallback) (percentEncode filename)
  rw [hencoded, List.append_nil, filter_asciiFallback] at hheader
  exact hheader

/-- A kind of characters that no part has which names of fixed files are put together from. -/
structure IsForeign (p : Char → Bool) : Prop where
  mark : mark.filter p = []
  extension : extension.filter p = []
  defaultName : defaultName.filter p = []

section

variable {p : Char → Bool}

theorem IsForeign.filter_markExtension? (hp : IsForeign p) (h : markExtension? t = some t') :
    t'.filter p = t.filter p := by
  induction t generalizing t' with
  | nil => cases h
  | cons c t ih =>
    rw [markExtension?] at h
    split at h
    · injection h with h
      rw [← h, List.filter_append, hp.mark, List.nil_append]
    · obtain ⟨t'', hmarked, rfl⟩ := Option.map_eq_some_iff.1 h
      rw [List.filter_cons, List.filter_cons, ih hmarked]

theorem IsForeign.filter_orElse (hp : IsForeign p) (t : Text) :
    (orElse t Download.defaultName).filter p = t.filter p := by
  rw [orElse]
  split
  · next h =>
    rw [List.isEmpty_iff.1 h, hp.defaultName]
    rfl
  · rfl

/-- The name of a fixed file has the foreign characters of the name that it was given. -/
theorem IsForeign.filter_fixedName (hp : IsForeign p) (filename : Option Text) :
    (fixedName filename).filter p = (baseName (filename.getD [])).filter p := by
  have hname : (fixedName filename).filter p =
      (baseName (orElse (filename.getD []) Download.defaultName)).filter p := by
    rw [fixedName, ← hp.filter_orElse (baseName _)]
    generalize orElse (baseName (orElse (filename.getD []) Download.defaultName))
      Download.defaultName = name
    cases hmarked : markExtension? name with
    | none =>
      rw [Option.getD_none, List.filter_append, List.filter_append, hp.mark, hp.extension,
        List.append_nil, List.append_nil]
    | some t => exact hp.filter_markExtension? hmarked
  rw [hname, orElse]
  split
  · next h =>
    have hbase : baseName Download.defaultName = Download.defaultName := by decide
    rw [List.isEmpty_iff.1 h, hbase, hp.defaultName]
    rfl
  · rfl

end

theorem isForeign_isControl : IsForeign isControl := ⟨by decide, by decide, by decide⟩

theorem filter_fixedName (filename : Option Text) :
    (fixedName filename).filter isControl = (baseName (filename.getD [])).filter isControl :=
  isForeign_isControl.filter_fixedName filename

/-- The header that offers a fixed file holds, besides printable ASCII, the control characters of
the last part of the path that the file was named by, and so is all printable exactly if that part
has none. -/
theorem contentDisposition_printable_iff (filename : Option Text) :
    (contentDisposition (fixedName filename)).filter (!isPrintableAscii ·) =
      (baseName (filename.getD [])).filter isControl ∧
    ((∀ c ∈ contentDisposition (fixedName filename), isPrintableAscii c = true) ↔
      ∀ c ∈ baseName (filename.getD []), isControl c = false) := by
  have hfilter : (contentDisposition (fixedName filename)).filter (!isPrintableAscii ·) =
      (baseName (filename.getD [])).filter isControl :=
    (filter_contentDisposition _).trans (filter_fixedName filename)
  have hprintable : (contentDisposition (fixedName filename)).filter (!isPrintableAscii ·) = [] ↔
      ∀ c ∈ contentDisposition (fixedName filename), isPrintableAscii c = true := by
    simp [List.filter_eq_nil_iff]
  have hcontrol : (baseName (filename.getD [])).filter isControl = [] ↔
      ∀ c ∈ baseName (filename.getD []), isControl c = false := by
    simp [List.filter_eq_nil_iff]
  exact ⟨hfilter, by rw [← hprintable, ← hcontrol, hfilter]⟩

/-- A line break in a name stands in the header too. -/
theorem contentDisposition_lineBreak :
    fixedName (some "a\nb.srt".toList) = "a\nb_fixed.srt".toList ∧
      contentDisposition (fixedName (some "a\nb.srt".toList)) =
        "attachment; filename=\"a\nb_fixed.srt\"; filename*=UTF-8''a%0Ab_fixed.srt".toList ∧
      ¬ ∀ c ∈ contentDisposition (fixedName (some "a\nb.srt".toList)),
        isPrintableAscii c = true := by
  have hname : fixedName (some "a\nb.srt".toList) = "a\nb_fixed.srt".toList := by decide +kernel
  have hheader : contentDisposition "a\nb_fixed.srt".toList =
      "attachment; filename=\"a\nb_fixed.srt\"; filename*=UTF-8''a%0Ab_fixed.srt".toList := by
    decide +kernel
  have hbreak : '\n' ∈
      "attachment; filename=\"a\nb_fixed.srt\"; filename*=UTF-8''a%0Ab_fixed.srt".toList := by
    decide +kernel
  rw [hname, hheader]
  exact ⟨rfl, rfl, fun h => absurd (h _ hbreak) (by decide)⟩

end Download

end CueCheck
