import CueCheck.Proofs.CredentialShapes

/-!
What a shape finds at the front of a text, in terms of the name, the signs and the value.
-/

namespace CueCheck.Redaction.Shape

/-- A name at the front of a text, with signs after it and the place where the value is read. -/
structure Reads (s : Shape) (t name after value : Text) : Prop where
  eq_append : t = name ++ after
  named : name.map foldCase ∈ s.names
  lead : s.lead? after = some value

section

variable {s : Shape} {before : Option Char} {t name after value rest : Text}

theorem isNameChar_of_named (h : name.map foldCase ∈ s.names) :
    ∀ c ∈ name, isNameChar c = true := by
  intro c hc
  exact List.all_eq_true.1 (s.name_chars _ h).2 _ (List.mem_map_of_mem hc)

theorem ne_nil_of_named (h : name.map foldCase ∈ s.names) : name ≠ [] := by
  rintro rfl
  exact (s.name_chars _ h).1 rfl

theorem eq_of_named {other back : Text} (h : name.map foldCase ∈ s.names)
    (hother : other.map foldCase ∈ s.names) (heq : name ++ after = other ++ back) :
    name = other := by
  have hfront : name <+: name ++ after := List.prefix_append ..
  have hback : other <+: name ++ after := by
    rw [heq]
    exact List.prefix_append ..
  rcases List.prefix_or_prefix_of_prefix hfront hback with hle | hle
  · have hfold := s.eq_of_front _ h _ hother (hle.map foldCase)
    apply hle.eq_of_length
    simpa using congrArg List.length hfold
  · have hfold := s.eq_of_front _ hother _ h (hle.map foldCase)
    symm
    apply hle.eq_of_length
    simpa using congrArg List.length hfold

theorem name?_eq_some_iff :
    s.name? t = some (name, after) ↔ t = name ++ after ∧ name.map foldCase ∈ s.names := by
  have hsound : ∀ {name after : Text}, s.name? t = some (name, after) →
      t = name ++ after ∧ name.map foldCase ∈ s.names := by
    intro name after h
    obtain ⟨w, hw, hword⟩ := List.exists_of_findSome?_eq_some h
    obtain ⟨heq, rfl⟩ := word?_eq_some_iff.1 hword
    exact ⟨heq, hw⟩
  constructor
  · exact hsound
  · rintro ⟨rfl, hmem⟩
    have hsome : (s.name? (name ++ after)).isSome := by
      rw [name?, List.findSome?_isSome_iff]
      exact ⟨_, hmem, by rw [word?_eq_some_iff.2 ⟨rfl, rfl⟩]; rfl⟩
    obtain ⟨⟨other, back⟩, hfound⟩ := Option.isSome_iff_exists.1 hsome
    obtain ⟨heq, hmem'⟩ := hsound hfound
    obtain rfl := eq_of_named hmem hmem' heq
    rw [hfound, List.append_cancel_left heq]

theorem reads_iff : s.Reads t name after value ↔
    s.name? t = some (name, after) ∧ s.lead? after = some value := by
  rw [name?_eq_some_iff]
  exact ⟨fun h => ⟨⟨h.eq_append, h.named⟩, h.lead⟩, fun h => ⟨h.1.1, h.1.2, h.2⟩⟩

theorem find_eq_some_iff {found : Found} : s.find before t = some found ↔
    (s.startsWord = true → atWordStart before = true) ∧ ∃ name after value rest,
      s.Reads t name after value ∧ s.credential? value = some rest ∧
        found = ⟨s.written name, rest⟩ := by
  rw [find_eq_bind]
  constructor
  · intro h
    split at h
    · next hword =>
      obtain ⟨⟨name, after⟩, hname, h⟩ := Option.bind_eq_some_iff.1 h
      obtain ⟨value, hlead, h⟩ := Option.bind_eq_some_iff.1 h
      obtain ⟨rest, hrest, h⟩ := Option.bind_eq_some_iff.1 h
      injection h with h
      exact ⟨hword, name, after, value, rest, reads_iff.2 ⟨hname, hlead⟩, hrest, h.symm⟩
    · cases h
  · rintro ⟨hword, name, after, value, rest, hreads, hrest, rfl⟩
    obtain ⟨hname, hlead⟩ := reads_iff.1 hreads
    rw [if_pos hword, hname, Option.bind_some, hlead, Option.bind_some, hrest]
    rfl

/-- One or more signs stand between a name and its value. -/
theorem Reads.exists_signs (h : s.Reads t name after value) :
    ∃ c signs, after = c :: signs ++ value ∧ (∀ d ∈ c :: signs, isSign d = true) ∧
      ∀ other, SameFront value other → s.lead? (c :: signs ++ other) = some other := by
  obtain ⟨signs, rfl, hsigns, hread⟩ := s.readsSigns _ _ h.lead
  have hlt := s.length_lead _ _ h.lead
  cases signs with
  | nil => simp at hlt
  | cons c signs => exact ⟨c, signs, rfl, hsigns, hread⟩

theorem minLength_pos (s : Shape) : 0 < s.minLength := by
  rcases s.length_cases with h | h
  · rw [h]
    exact Nat.one_pos
  · exact h.1

theorem value?_eq_some (h : s.value? t = some rest) : ∃ taken, taken ≠ [] ∧ t = taken ++ rest ∧
    (∀ c ∈ taken, s.inValue c = true) ∧ ∀ c ∈ rest.head?, s.inValue c = false := by
  rw [value?] at h
  split at h
  · next hlong =>
    injection h with h
    subst h
    refine ⟨t.takeWhile s.inValue, ?_, List.takeWhile_append_dropWhile.symm,
      fun c hc => List.mem_takeWhile_imp hc, front_dropWhile s.inValue t⟩
    exact List.length_pos_iff.1 (s.minLength_pos.trans_le hlong)
  · cases h

theorem isSome_value?_iff :
    (s.value? t).isSome = true ↔ s.minLength ≤ (t.takeWhile s.inValue).length := by
  rw [value?]
  split <;> simp_all

theorem afterScheme?_eq_some (h : s.afterScheme? t = some rest) : s.minLength = 1 ∧
    ∃ word blanks, t = word ++ (blanks ++ rest) ∧ word.map foldCase = "bearer".toList ∧
      blanks ≠ [] ∧ (∀ c ∈ blanks, Text.isBlank c = true) ∧
        ∀ c ∈ rest.head?, Text.isBlank c = false := by
  obtain ⟨w, hw, h⟩ := Option.bind_eq_some_iff.1 h
  obtain ⟨⟨word, back⟩, hword, h⟩ := Option.bind_eq_some_iff.1 h
  obtain ⟨blanks, hne, rfl, hblanks, hfront⟩ := run?_eq_some_iff.1 h
  obtain ⟨rfl, rfl⟩ := word?_eq_some_iff.1 hword
  obtain ⟨hbearer, hlength⟩ := s.scheme_spec _ hw
  exact ⟨hlength, word, blanks, rfl, hbearer, hne, hblanks, hfront⟩

theorem credential?_eq_some (h : s.credential? t = some rest) :
    ∃ taken, taken ≠ [] ∧ t = taken ++ rest ∧ ∀ c ∈ rest.head?, s.inValue c = false := by
  rcases Option.or_eq_some_iff.1 h with h | ⟨-, h⟩
  · obtain ⟨value, hscheme, hvalue⟩ := Option.bind_eq_some_iff.1 h
    obtain ⟨-, word, blanks, rfl, -⟩ := afterScheme?_eq_some hscheme
    obtain ⟨taken, hne, rfl, -, hfront⟩ := value?_eq_some hvalue
    refine ⟨word ++ (blanks ++ taken), ?_, by simp, hfront⟩
    simp [hne]
  · obtain ⟨taken, hne, heq, -, hfront⟩ := value?_eq_some h
    exact ⟨taken, hne, heq, hfront⟩

/-- A word before the value is itself long enough for a value. -/
theorem isSome_credential?_iff :
    (s.credential? t).isSome = true ↔ s.minLength ≤ (t.takeWhile s.inValue).length := by
  rw [← isSome_value?_iff, credential?, Option.isSome_or, Bool.or_eq_true, or_iff_right_iff_imp]
  intro h
  obtain ⟨rest, h⟩ := Option.isSome_iff_exists.1 h
  obtain ⟨value, hscheme, -⟩ := Option.bind_eq_some_iff.1 h
  obtain ⟨hlength, word, blanks, rfl, hword, -⟩ := afterScheme?_eq_some hscheme
  cases word with
  | nil => cases hword
  | cons c word =>
    have hc : isNameChar c = true := by
      injection hword with hc
      rw [isNameChar, hc]
      rfl
    rw [isSome_value?_iff, hlength, List.cons_append,
      List.takeWhile_cons_of_pos (s.inValue_name c hc)]
    simp

theorem consumes_find (s : Shape) : Consumes s.find := by
  intro before t found h
  obtain ⟨-, name, after, value, rest, hreads, hrest, rfl⟩ := find_eq_some_iff.1 h
  obtain ⟨c, signs, rfl, -⟩ := hreads.exists_signs
  obtain ⟨taken, hne, rfl, -⟩ := credential?_eq_some hrest
  refine ⟨name ++ (c :: signs ++ taken), by simp, ?_⟩
  rw [hreads.eq_append]
  simp

end

end CueCheck.Redaction.Shape
