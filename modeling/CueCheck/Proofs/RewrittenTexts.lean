import CueCheck.Proofs.CredentialReading

/-!
Reading a text that a scan has rewritten: up to the first credential that was replaced it is the
text before the scan, and what stands for a credential starts with its name.
-/

namespace CueCheck.Redaction

namespace Shape

variable {s : Shape} {before : Option Char} {t name rest replacement taken : Text}

/-- The name of a credential as it is written. -/
def spelled (s : Shape) (name : Text) : Text := s.spelling.getD name

theorem map_spelled (h : name.map foldCase ∈ s.names) :
    (s.spelled name).map foldCase = name.map foldCase := by
  rw [spelled]
  cases hspelling : s.spelling with
  | none => rfl
  | some w => exact (s.spelling_spec w hspelling _ h).symm

theorem written_eq (s : Shape) (name : Text) :
    s.written name = s.spelled name ++ (s.sign ++ mask) := List.append_assoc ..

theorem getLast?_mask : mask.getLast? = some '*' := by decide +kernel

theorem getLast?_written (s : Shape) (name : Text) : (s.written name).getLast? = some '*' := by
  rw [written, List.getLast?_append, getLast?_mask]
  rfl

theorem exists_front (h : name.map foldCase ∈ s.names) (after : Text) :
    ∃ c ∈ (name ++ after).head?, isNameChar c = true := by
  cases name with
  | nil => exact absurd rfl (ne_nil_of_named h)
  | cons c name => exact ⟨c, rfl, isNameChar_of_named h c List.mem_cons_self⟩

theorem find_of_front (h : ∀ c ∈ t.head?, isNameChar c = false) : s.find before t = none := by
  rw [Option.eq_none_iff_forall_ne_some]
  intro found hfound
  obtain ⟨-, name, after, value, rest, hreads, -⟩ := find_eq_some_iff.1 hfound
  obtain ⟨c, hc, hchar⟩ := exists_front hreads.named after
  rw [← hreads.eq_append] at hc
  rw [h c hc] at hchar
  cases hchar

theorem isNameChar_of_inValue {c : Char} (h : s.inValue c = false) : isNameChar c = false := by
  rw [Bool.eq_false_iff]
  intro hname
  rw [s.inValue_name c hname] at h
  cases h

theorem sign_front (s : Shape) (rest : Text) : ∃ c ∈ (s.sign ++ rest).head?, isSign c = true := by
  obtain ⟨hne, hsigns⟩ := s.sign_chars
  cases hsign : s.sign with
  | nil => exact absurd hsign hne
  | cons c signs => exact ⟨c, rfl, hsigns c (by rw [hsign]; exact List.mem_cons_self)⟩

theorem exists_of_find (h : s.find before (taken ++ rest) = some ⟨replacement, rest⟩) :
    ∃ name back, taken = name ++ back ∧ name.map foldCase ∈ s.names ∧
      replacement = s.spelled name ++ (s.sign ++ mask) ∧ ∀ c ∈ rest.head?, s.inValue c = false := by
  obtain ⟨-, name, after, value, rest', hreads, hrest, hfound⟩ := find_eq_some_iff.1 h
  injection hfound with hreplacement hrest'
  subst hrest'
  obtain ⟨c, signs, rfl, -⟩ := hreads.exists_signs
  obtain ⟨credential, -, rfl, hfront⟩ := credential?_eq_some hrest
  refine ⟨name, c :: signs ++ credential, ?_, hreads.named, ?_, hfront⟩
  · have heq := hreads.eq_append
    rw [← List.append_assoc, ← List.append_assoc] at heq
    rw [List.append_cancel_right heq, List.append_assoc]
  · rw [hreplacement, written_eq]

end Shape

section Rewriting

variable {f g : Shape} {before : Option Char} {t s name after : Text} {c : Char}

/-- The front of a rewritten text was kept, or it stands for a credential. -/
theorem Rewritten.front_cases (h : Rewritten g.find before t (c :: s)) :
    (∃ t', t = c :: t' ∧ Rewritten g.find (some c) t' s) ∨
      ∃ name back rest, t = name ++ back ∧ name.map foldCase ∈ g.names ∧
        c :: s = g.spelled name ++ (g.sign ++ (mask ++ rest)) := by
  generalize hu : c :: s = u at h
  cases h with
  | nil => cases hu
  | keep hnone hrest =>
    injection hu with hc hu
    subst hc hu
    exact .inl ⟨_, rfl, hrest⟩
  | @replace _ taken replacement rest s hne hfound hrest =>
    obtain ⟨name, back, rfl, hnamed, rfl, -⟩ := Shape.exists_of_find hfound
    refine .inr ⟨name, back ++ rest, s, List.append_assoc .., hnamed, ?_⟩
    rw [List.append_assoc, List.append_assoc]

theorem Rewritten.eq_nil (h : Rewritten g.find before t []) : t = [] := by
  generalize hu : ([] : Text) = u at h
  cases h with
  | nil => rfl
  | keep => cases hu
  | replace hne hfound hrest =>
    obtain ⟨name, back, rfl, hnamed, rfl, -⟩ := Shape.exists_of_find hfound
    have hsign := g.sign_chars.1
    simp_all

theorem Rewritten.of_signs {signs : Text} (hsigns : ∀ c ∈ signs, isSign c = true)
    (h : Rewritten g.find before t (signs ++ s)) :
    ∃ before' rest, t = signs ++ rest ∧ Rewritten g.find before' rest s := by
  induction signs generalizing before t with
  | nil => exact ⟨before, t, rfl, h⟩
  | cons c signs ih =>
    rw [List.forall_mem_cons] at hsigns
    rcases h.front_cases with ⟨t', rfl, hrest⟩ | ⟨name, back, rest, -, hnamed, heq⟩
    · obtain ⟨before', rest, rfl, hback⟩ := ih hsigns.2 hrest
      exact ⟨before', rest, rfl, hback⟩
    · rw [← Shape.map_spelled hnamed] at hnamed
      obtain ⟨d, hd, hchar⟩ := Shape.exists_front hnamed (g.sign ++ (mask ++ rest))
      rw [← heq] at hd
      injection hd with hd
      rw [← hd, isNameChar_of_isSign hsigns.1] at hchar
      cases hchar

/-- A name that signs follow was there before the scan, or stands for a credential, at least the end
of it. -/
theorem Rewritten.of_name (hname : ∀ c ∈ name, isNameChar c = true)
    (hafter : ∃ c ∈ after.head?, isSign c = true)
    (h : Rewritten g.find before t (name ++ after)) :
    (∃ before' back, t = name ++ back ∧ Rewritten g.find before' back after) ∨
      ∃ w ∈ g.names, w <:+ name.map foldCase ∧ ∃ rest, after = g.sign ++ (mask ++ rest) := by
  induction name generalizing before t with
  | nil => exact .inl ⟨before, t, rfl, h⟩
  | cons c name ih =>
    rcases h.front_cases with ⟨t', rfl, hrest⟩ | ⟨other, back, rest, -, hnamed, heq⟩
    · rw [List.forall_mem_cons] at hname
      rcases ih hname.2 hrest with ⟨before', back, rfl, hback⟩ | ⟨w, hw, hsuffix, hrest⟩
      · exact .inl ⟨before', back, rfl, hback⟩
      · exact .inr ⟨w, hw, hsuffix.trans (List.suffix_cons _ _), hrest⟩
    · -- Both sides run through name characters up to the first sign.
      rw [← Shape.map_spelled hnamed] at hnamed
      obtain ⟨hspelled, hrest⟩ := eq_of_append_eq_append heq hname
        (Shape.isNameChar_of_named hnamed) (isNameChar_of_signFront hafter)
        (isNameChar_of_signFront (g.sign_front _))
      rw [← hspelled] at hnamed
      exact .inr ⟨_, hnamed, List.suffix_rfl, rest, hrest⟩

theorem Rewritten.sameFront (h : Rewritten g.find before t s) : SameFront t s := by
  cases s with
  | nil =>
    rw [h.eq_nil]
    exact fun _ _ => Iff.rfl
  | cons c s =>
    rcases h.front_cases with ⟨t', rfl, -⟩ | ⟨name, back, rest, rfl, hnamed, heq⟩
    · exact fun _ _ => Iff.rfl
    · intro d hd
      have hneither {name back : Text} (h : name.map foldCase ∈ g.names) :
          (name ++ back).head? ≠ some d := by
        intro hhead
        obtain ⟨e, he, hchar⟩ := Shape.exists_front h back
        rw [hhead] at he
        injection he with he
        rw [← he, isNameChar_of_isSign hd] at hchar
        cases hchar
      have hnamed' := hnamed
      rw [← Shape.map_spelled hnamed] at hnamed'
      rw [heq]
      exact iff_of_false (hneither hnamed) (hneither hnamed')

/-- A front that no name starts with is kept. -/
theorem Rewritten.head?_eq (h : Rewritten g.find before t s)
    (hfront : ∀ c ∈ t.head?, isNameChar c = false) : s.head? = t.head? := by
  cases h with
  | nil => rfl
  | keep => rfl
  | replace hne hfound hrest =>
    rw [Shape.find_of_front hfront] at hfound
    cases hfound

theorem Rewritten.length_takeWhile (hsign : ∀ c, isSign c = true → f.inValue c = false)
    (h : Rewritten g.find before t s) :
    (s.takeWhile f.inValue).length ≤ (t.takeWhile f.inValue).length := by
  induction h with
  | nil => exact Nat.le_refl 0
  | @keep before c t s hnone hrest ih =>
    by_cases hc : f.inValue c = true
    · rw [List.takeWhile_cons_of_pos hc, List.takeWhile_cons_of_pos hc]
      exact Nat.succ_le_succ ih
    · rw [List.takeWhile_cons_of_neg hc, List.takeWhile_cons_of_neg hc]
  | @replace before taken replacement rest s hne hfound hrest ih =>
    obtain ⟨name, back, rfl, hnamed, rfl, -⟩ := Shape.exists_of_find hfound
    have hnamed' := hnamed
    rw [← Shape.map_spelled hnamed] at hnamed'
    have hin {name : Text} (h : name.map foldCase ∈ g.names) : ∀ c ∈ name, f.inValue c = true :=
      fun c hc => f.inValue_name c (Shape.isNameChar_of_named h c hc)
    have hlength := congrArg List.length (Shape.map_spelled hnamed)
    rw [List.length_map, List.length_map] at hlength
    have hfront : ∀ c ∈ (g.sign ++ (mask ++ s)).head?, f.inValue c = false := by
      obtain ⟨d, hd, hdsign⟩ := g.sign_front (mask ++ s)
      intro c hc
      rw [Option.mem_unique hc hd]
      exact hsign d hdsign
    rw [List.append_assoc, List.append_assoc, takeWhile_append_of_front (hin hnamed') hfront,
      List.append_assoc, List.takeWhile_append_of_pos (hin hnamed), List.length_append, hlength]
    exact Nat.le_add_right ..

/-- Where a value can be read after the scan, one could be read before it. -/
theorem Rewritten.isSome_credential? (h : Rewritten g.find before t s)
    (hvalue : (f.credential? s).isSome = true) : (f.credential? t).isSome = true := by
  rw [Shape.isSome_credential?_iff] at hvalue ⊢
  rcases f.length_cases with hone | ⟨-, hsign⟩
  · rw [hone] at hvalue ⊢
    cases s with
    | nil => simp at hvalue
    | cons c s =>
      rcases h.front_cases with ⟨t', rfl, -⟩ | ⟨name, back, rest, rfl, hnamed, -⟩
      · by_cases hc : f.inValue c = true
        · simp [hc]
        · simp [hc] at hvalue
      · have hin : ∀ c ∈ name, f.inValue c = true :=
          fun c hc => f.inValue_name c (Shape.isNameChar_of_named hnamed c hc)
        have hpos := List.length_pos_iff.2 (Shape.ne_nil_of_named hnamed)
        rw [List.takeWhile_append_of_pos hin, List.length_append]
        omega
  · exact hvalue.trans (h.length_takeWhile hsign)

/-- A part of the text in which nothing is found is kept. -/
theorem Rewritten.of_kept {kept : Text}
    (hnone : ∀ y before, y ≠ [] → y <:+ kept → g.find before (y ++ t) = none)
    (h : Rewritten g.find before (kept ++ t) s) :
    ∃ before' rest, s = kept ++ rest ∧ Rewritten g.find before' t rest := by
  refine ⟨kept.getLast?.or before, replaceAll g.find _ t, ?_, rewritten_replaceAll g.consumes_find⟩
  rw [← h.replaceAll_eq, replaceAll_append_of_none hnone]

end Rewriting

end CueCheck.Redaction
