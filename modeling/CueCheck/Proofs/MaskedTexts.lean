import CueCheck.Proofs.RewrittenTexts

/-!
Texts in which every credential of a shape is masked: the scan for the shape makes them, scans for
other shapes keep them so, and a further scan for the shape leaves them as they are.
-/

namespace CueCheck.Redaction

namespace Shape

/-- If the shape finds a credential at the front of the text, it stands there as it is written, with
the mask. It is tight if nothing of a value follows the mask. -/
def MaskedAt (s : Shape) (tight : Bool) (before : Option Char) (t : Text) : Prop :=
  ∀ found, s.find before t = some found → ∃ rest, t = found.replacement ++ rest ∧
    (tight = true → ∀ c ∈ rest.head?, s.inValue c = false)

/-- At every place of the text what the shape finds is masked. -/
def Masked (s : Shape) (tight : Bool) : Option Char → Text → Prop
  | _, [] => True
  | before, c :: t => s.MaskedAt tight before (c :: t) ∧ s.Masked tight (some c) t

/-- Where names of two shapes end alike, what the second writes is no credential to the first, or is
a masked one of its own. -/
def Agrees (f g : Shape) (tight : Bool) : Prop :=
  ∀ v ∈ f.names, ∀ w ∈ g.names, v <:+ w ∨ w <:+ v →
    (v = w ∧ f.sign = g.sign ∧ f.spelling = g.spelling ∧
      (tight = true → ∀ c, g.inValue c = false → f.inValue c = false)) ∨
    ∀ rest value, f.lead? (g.sign ++ (mask ++ rest)) = some value → f.credential? value = none

section Masks

variable {f g s : Shape} {tight : Bool} {before : Option Char} {t u : Text}

theorem maskedAt_of_find (h : s.find before t = none) : s.MaskedAt tight before t := by
  intro found hfound
  rw [h] at hfound
  cases hfound

theorem Masked.maskedAt (h : s.Masked tight before t) : s.MaskedAt tight before t := by
  cases t with
  | nil => exact maskedAt_of_find (find_of_front (by simp))
  | cons c t => exact h.1

theorem Masked.of_append {x : Text}
    (hmasked : ∀ y before, y ≠ [] → y <:+ x → s.MaskedAt tight before (y ++ t))
    (ht : s.Masked tight (x.getLast?.or before) t) : s.Masked tight before (x ++ t) := by
  induction x generalizing before with
  | nil => exact ht
  | cons c x ih =>
    refine ⟨hmasked _ before (List.cons_ne_nil _ _) List.suffix_rfl, ih ?_ ?_⟩
    · exact fun y before hy hsuffix => hmasked y before hy (hsuffix.trans (List.suffix_cons _ _))
    · rwa [getLast?_cons_or] at ht

theorem Masked.append_right {x : Text} (h : s.Masked tight before (x ++ t)) :
    s.Masked tight (x.getLast?.or before) t := by
  induction x generalizing before with
  | nil => exact h
  | cons c x ih =>
    rw [getLast?_cons_or]
    exact ih h.2

theorem Masked.of_append_right {x : Text} (hne : x ≠ []) (h : s.Masked tight before (x ++ t)) :
    s.Masked tight x.getLast? t := by
  rw [← getLast?_or_of_ne_nil hne before]
  exact h.append_right

theorem star_mem_of_suffix_mask {y : Text} (hne : y ≠ []) (h : y <:+ mask) : '*' ∈ y := by
  obtain ⟨x, hx⟩ := h
  have hlast : y.getLast? = some '*' := by
    rw [← getLast?_mask, ← hx, List.getLast?_append_of_ne_nil _ hne]
  exact List.mem_of_getLast? hlast

/-- No name starts in a mask. -/
theorem find_mask {y : Text} (hne : y ≠ []) (h : y <:+ mask) (z : Text) :
    s.find before (y ++ z) = none := by
  rw [Option.eq_none_iff_forall_ne_some]
  intro found hfound
  obtain ⟨-, name, after, value, rest, hreads, -⟩ := find_eq_some_iff.1 hfound
  have hname : name <+: y ++ z := by
    rw [hreads.eq_append]
    exact List.prefix_append ..
  rcases List.prefix_or_prefix_of_prefix hname (List.prefix_append y z) with hle | hle
  · have hwithin : name <:+: mask := hle.isInfix.trans h.isInfix
    exact s.not_in_mask _ hreads.named (hwithin.map foldCase)
  · have hstar := isNameChar_of_named hreads.named '*' (hle.subset (star_mem_of_suffix_mask hne h))
    cases hstar

/-- No name starts in what is written after one. -/
theorem find_sign_mask {y : Text} (hne : y ≠ []) (h : y <:+ g.sign ++ mask) (z : Text) :
    s.find before (y ++ z) = none := by
  obtain ⟨x, hx⟩ := h
  rcases List.append_eq_append_iff.1 hx with ⟨signs, hsign, rfl⟩ | ⟨front, -, hmask⟩
  · cases signs with
    | nil => exact find_mask hne List.suffix_rfl z
    | cons c signs =>
      apply find_of_front
      intro d hd
      injection hd with hd
      subst hd
      exact isNameChar_of_isSign (g.sign_chars.2 c (by rw [hsign]; simp))
  · exact find_mask hne ⟨front, hmask.symm⟩ z

theorem spelled_spelled (h : f.spelling = g.spelling) (name : Text) :
    f.spelled (g.spelled name) = g.spelled name := by
  rw [spelled, spelled, h]
  cases g.spelling <;> rfl

/-- What a shape writes is masked for it, and for a shape that agrees with it. -/
theorem Agrees.maskedAt_written (h : Agrees f g tight) {name y : Text}
    (hnamed : name.map foldCase ∈ g.names) (hy : y <:+ g.spelled name)
    (ht : ∀ c ∈ t.head?, g.inValue c = false) :
    f.MaskedAt tight before (y ++ (g.sign ++ (mask ++ t))) := by
  intro found hfound
  obtain ⟨-, name', after, value, rest, hreads, hrest, rfl⟩ := find_eq_some_iff.1 hfound
  obtain ⟨c, signs, rfl, hsigns, -⟩ := hreads.exists_signs
  have hfold := map_spelled hnamed
  rw [← hfold] at hnamed
  obtain ⟨rfl, hafter⟩ := eq_of_append_eq_append hreads.eq_append
    (fun c hc => isNameChar_of_named hnamed c (hy.subset hc)) (isNameChar_of_named hreads.named)
    (isNameChar_of_signFront (g.sign_front _))
    (isNameChar_of_signFront ⟨c, rfl, hsigns c List.mem_cons_self⟩)
  rcases h _ hreads.named _ hnamed (.inl (hy.map foldCase)) with
    ⟨hsame, hsign, hspelling, hin⟩ | hfails
  · have hwhole : y = g.spelled name := by
      apply hy.eq_of_length
      simpa using congrArg List.length hsame
    refine ⟨t, ?_, fun htight c hc => hin htight c (ht c hc)⟩
    rw [written_eq, hwhole, spelled_spelled hspelling, hsign]
    simp only [List.append_assoc]
  · have hlead := hreads.lead
    rw [← hafter] at hlead
    rw [hfails _ _ hlead] at hrest
    cases hrest

/-- A masked credential is read as it is written. -/
theorem Reads.of_written {name after value : Text}
    (h : s.Reads (s.written name ++ t) name after value) :
    s.spelled name = name ∧ after = s.sign ++ (mask ++ t) ∧ value = mask ++ t := by
  obtain ⟨c, signs, rfl, hsigns, -⟩ := h.exists_signs
  have heq := h.eq_append
  simp only [written_eq, List.append_assoc] at heq
  have hspelled := h.named
  rw [← map_spelled h.named] at hspelled
  obtain ⟨hname, hafter⟩ := eq_of_append_eq_append heq (isNameChar_of_named hspelled)
    (isNameChar_of_named h.named) (isNameChar_of_signFront (s.sign_front _))
    (isNameChar_of_signFront ⟨c, rfl, hsigns c List.mem_cons_self⟩)
  have hlead := h.lead
  rw [← hafter, s.lead_sign] at hlead
  injection hlead with hlead
  exact ⟨hname, hafter.symm, hlead.symm⟩

/-- A character that a scan keeps stays one at which nothing but a masked credential is found. -/
theorem Agrees.maskedAt_of_keep {c : Char} (h : Agrees f g tight)
    (hmasked : f = g ∨ f.MaskedAt tight before (c :: t)) (hnone : g.find before (c :: t) = none)
    (hrest : Rewritten g.find (some c) t u) : f.MaskedAt tight before (c :: u) := by
  intro found hfound
  obtain ⟨hword, name, after, value, rest, hreads, hvalue, rfl⟩ := find_eq_some_iff.1 hfound
  obtain ⟨d, signs, rfl, hsigns, hlead⟩ := hreads.exists_signs
  have hnamed := hreads.named
  have hchars := isNameChar_of_named hnamed
  cases name with
  | nil => exact absurd rfl (ne_nil_of_named hnamed)
  | cons e name =>
    have heq := hreads.eq_append
    rw [List.cons_append] at heq
    injection heq with he heq
    subst he heq
    rw [List.forall_mem_cons] at hchars
    rcases hrest.of_name hchars.2 ⟨d, rfl, hsigns d List.mem_cons_self⟩ with
      ⟨before', back, rfl, hback⟩ | ⟨w, hw, hsuffix, z, hz⟩
    · -- The name was there before the scan, with its signs and some value.
      obtain ⟨before'', value', rfl, hvalue'⟩ := hback.of_signs hsigns
      have hreads' : f.Reads (c :: (name ++ (d :: signs ++ value'))) (c :: name)
          (d :: signs ++ value') value' :=
        ⟨rfl, hnamed, hlead _ fun e he => (hvalue'.sameFront e he).symm⟩
      have hsome := hvalue'.isSome_credential? (f := f) (by rw [hvalue]; rfl)
      obtain ⟨rest', hrest'⟩ := Option.isSome_iff_exists.1 hsome
      have hfound' := find_eq_some_iff.2 ⟨hword, _, _, _, _, hreads', hrest', rfl⟩
      rcases hmasked with rfl | hmasked
      · rw [hnone] at hfound'
        cases hfound'
      · obtain ⟨r, hr, htight⟩ := hmasked _ hfound'
        rw [hr] at hreads'
        obtain ⟨hspelled, hsign, rfl⟩ := hreads'.of_written
        have hsign := List.append_cancel_right hsign
        obtain ⟨_, r', rfl, hr'⟩ := hvalue'.of_kept fun y b hy hsuffix => find_mask hy hsuffix r
        refine ⟨r', ?_, ?_⟩
        · simp only [written_eq, hspelled, ← hsign, List.append_assoc, List.cons_append]
        · intro ht e he
          have hfront : ∀ e ∈ r.head?, isNameChar e = false :=
            fun e he => isNameChar_of_inValue (htight ht e he)
          rw [hr'.head?_eq hfront] at he
          exact htight ht e he
    · -- The end of the name stands for what the scan has found.
      rcases h _ hnamed _ hw (.inr (hsuffix.trans (List.suffix_cons _ _))) with ⟨hsame, -⟩ | hfails
      · have hle := hsuffix.length_le
        rw [← hsame, List.length_map, List.length_map, List.length_cons] at hle
        omega
      · have hlead' := hreads.lead
        rw [hz] at hlead'
        rw [hfails _ _ hlead'] at hvalue
        cases hvalue

theorem Agrees.masked_written (h : Agrees f g tight) {name : Text}
    (hnamed : name.map foldCase ∈ g.names) (hfront : ∀ c ∈ t.head?, g.inValue c = false)
    (ht : f.Masked tight (some '*') t) :
    f.Masked tight before (g.spelled name ++ (g.sign ++ (mask ++ t))) := by
  apply Masked.of_append
  · exact fun y b _ hy => h.maskedAt_written hnamed hy hfront
  · rw [← List.append_assoc]
    apply Masked.of_append
    · exact fun y b hy hsuffix => maskedAt_of_find (find_sign_mask hy hsuffix t)
    · rw [List.getLast?_append, getLast?_mask]
      exact ht

/-- A scan masks what it looks for, and keeps masked what another shape finds. -/
theorem Agrees.masked_of_rewritten (h : Agrees f g tight) {before' : Option Char}
    (hmasked : f = g ∨ f.Masked tight before t) (hrewritten : Rewritten g.find before t u)
    (hbefore : before' = before ∨ ∀ c ∈ t.head?, isNameChar c = false) :
    f.Masked tight before' u := by
  induction hrewritten generalizing before' with
  | nil => trivial
  | @keep before c t u hnone hrest ih =>
    refine ⟨?_, ih (hmasked.imp_right And.right) (.inl rfl)⟩
    rcases hbefore with rfl | hfront
    · exact h.maskedAt_of_keep (hmasked.imp_right And.left) hnone hrest
    · exact maskedAt_of_find (find_of_front hfront)
  | @replace before taken replacement rest u hne hfound hrest ih =>
    obtain ⟨name, back, -, hnamed, rfl, hfront⟩ := exists_of_find hfound
    have hfront' : ∀ c ∈ rest.head?, isNameChar c = false :=
      fun c hc => isNameChar_of_inValue (hfront c hc)
    rw [List.append_assoc, List.append_assoc]
    apply h.masked_written hnamed
    · rw [hrest.head?_eq hfront']
      exact hfront
    · refine ih (hmasked.imp_right fun hmasked => ?_) (.inr hfront')
      exact hmasked.of_append_right hne

theorem masked_replaceAll (h : Agrees s s tight) (t : Text) :
    s.Masked tight none (replaceAll s.find none t) :=
  h.masked_of_rewritten (.inl rfl) (rewritten_replaceAll s.consumes_find) (.inl rfl)

theorem Masked.scan (ht : f.Masked tight none t) (h : Agrees f g tight) :
    f.Masked tight none (replaceAll g.find none t) :=
  h.masked_of_rewritten (.inr ht) (rewritten_replaceAll g.consumes_find) (.inl rfl)

theorem masked_iff : s.Masked tight before t ↔
    ∀ x y, t = x ++ y → s.MaskedAt tight (x.getLast?.or before) y := by
  constructor
  · rintro h x y rfl
    exact h.append_right.maskedAt
  · intro h
    induction t generalizing before with
    | nil => trivial
    | cons c t ih =>
      refine ⟨h [] _ rfl, ih ?_⟩
      rintro x y rfl
      have hy := h (c :: x) y rfl
      rwa [getLast?_cons_or] at hy

theorem afterScheme?_mask (s : Shape) (t : Text) : s.afterScheme? (mask ++ t) = none := by
  cases h : s.afterScheme? (mask ++ t) with
  | none => rfl
  | some rest =>
    obtain ⟨-, word, blanks, heq, hword, -⟩ := afterScheme?_eq_some h
    cases word with
    | nil => cases hword
    | cons c word =>
      injection heq with hc
      subst hc
      injection hword with hc
      cases hc

/-- A value that starts with a mask is the mask and what goes on as a value. -/
theorem credential?_mask {rest : Text} (h : s.credential? (mask ++ t) = some rest) :
    s.inValue '*' = true ∧ rest = t.dropWhile s.inValue := by
  rw [credential?, afterScheme?_mask, Option.bind_none, Option.none_or, value?] at h
  rcases s.mask_cases with ⟨-, hin⟩ | hout
  · rw [List.dropWhile_append_of_pos hin] at h
    refine ⟨hin _ (by decide +kernel), ?_⟩
    split at h
    · injection h with h
      exact h.symm
    · cases h
  · have hnone : (mask ++ t).takeWhile s.inValue = [] :=
      List.takeWhile_cons_of_neg (mt hout.symm.trans (by decide))
    rw [hnone, if_neg] at h
    · cases h
    · exact Nat.not_le.2 s.minLength_pos

/-- Where a masked credential is found, what goes on as a value after the mask is lost. -/
theorem MaskedAt.of_find {found : Found} (h : s.MaskedAt tight before t)
    (hfound : s.find before t = some found) : s.inValue '*' = true ∧
      ∃ rest, t = found.replacement ++ rest ∧ found.rest = rest.dropWhile s.inValue ∧
        (tight = true → found.rest = rest) := by
  obtain ⟨rest, heq, hfront⟩ := h found hfound
  obtain ⟨-, name, after, value, rest', hreads, hvalue, rfl⟩ := find_eq_some_iff.1 hfound
  rw [heq] at hreads
  obtain ⟨-, -, rfl⟩ := hreads.of_written
  obtain ⟨hstar, rfl⟩ := credential?_mask hvalue
  refine ⟨hstar, rest, heq, rfl, fun ht => ?_⟩
  exact dropWhile_of_front (hfront ht)

/-- A scan leaves a text as it is if all that is found in it is masked and tight. -/
theorem Masked.eq_of_rewritten (h : s.Masked true before t)
    (hrewritten : Rewritten s.find before t u) : u = t := by
  induction hrewritten with
  | nil => rfl
  | keep hnone hrest ih => rw [ih h.2]
  | @replace before taken replacement rest u hne hfound hrest ih =>
    obtain ⟨-, r, htaken, -, hr⟩ := h.maskedAt.of_find hfound
    have heq := hr rfl
    simp only at htaken heq
    subst heq
    rw [List.append_cancel_right htaken, ih (h.of_append_right hne)]

/-- A scan makes a masked text no longer, and changes it unless it is tight. -/
theorem Masked.of_rewritten (hself : Agrees s s true) (h : s.Masked tight before t)
    (hrewritten : Rewritten s.find before t u) :
    u.length ≤ t.length ∧ (u = t → s.Masked true before t) := by
  induction hrewritten with
  | nil => exact ⟨Nat.le_refl 0, fun _ => trivial⟩
  | keep hnone hrest ih =>
    obtain ⟨hle, heq⟩ := ih h.2
    refine ⟨Nat.succ_le_succ hle, fun hu => ?_⟩
    injection hu with _ hu
    exact ⟨maskedAt_of_find hnone, heq hu⟩
  | @replace before taken replacement rest u hne hfound hrest ih =>
    obtain ⟨hle, heq⟩ := ih (h.of_append_right hne)
    obtain ⟨-, r, htaken, hr, -⟩ := h.maskedAt.of_find hfound
    simp only at htaken hr
    have hsuffix : rest <:+ r := by
      rw [hr]
      exact List.dropWhile_suffix _
    have hle' := hsuffix.length_le
    have hlength := congrArg List.length htaken
    simp only [List.length_append] at hlength ⊢
    refine ⟨by omega, fun hu => ?_⟩
    rw [htaken] at hu
    have hur := List.append_cancel_left hu
    obtain rfl : rest = r := hsuffix.eq_of_length_le (by rw [← hur]; exact hle)
    obtain rfl := List.append_cancel_right htaken
    obtain ⟨name, back, -, hnamed, rfl, hfront⟩ := exists_of_find hfound
    rw [List.append_assoc, List.append_assoc]
    apply hself.masked_written hnamed hfront
    have hrest := heq hur
    rwa [← List.append_assoc, List.getLast?_append, getLast?_mask] at hrest

theorem Masked.replaceAll_eq (h : s.Masked true before t) : replaceAll s.find before t = t :=
  h.eq_of_rewritten (rewritten_replaceAll s.consumes_find)

/-- A masked text stays as it is exactly if it is tight. -/
theorem Masked.replaceAll_eq_iff (hself : Agrees s s true) (h : s.Masked tight before t) :
    replaceAll s.find before t = t ↔ s.Masked true before t :=
  ⟨(h.of_rewritten hself (rewritten_replaceAll s.consumes_find)).2, Masked.replaceAll_eq⟩

/-- What is written for a credential is found again if the mask can be a value. -/
theorem exists_find_written {name : Text} (hword : s.startsWord = true → atWordStart before = true)
    (hnamed : name.map foldCase ∈ s.names) (hspelled : s.spelled name = name)
    (hstar : s.inValue '*' = true) (t : Text) :
    ∃ rest, s.find before (s.written name ++ t) = some ⟨s.written name, rest⟩ := by
  have hsome : (s.credential? (mask ++ t)).isSome = true := by
    rw [isSome_credential?_iff]
    rcases s.mask_cases with ⟨hlength, -⟩ | hout
    · rw [hlength, show mask ++ t = '*' :: (mask.tail ++ t) from rfl,
        List.takeWhile_cons_of_pos hstar]
      exact Nat.succ_le_succ (Nat.zero_le _)
    · rw [hstar] at hout
      cases hout
  obtain ⟨rest, hrest⟩ := Option.isSome_iff_exists.1 hsome
  have hreads : s.Reads (s.written name ++ t) name (s.sign ++ (mask ++ t)) (mask ++ t) := by
    refine ⟨?_, hnamed, s.lead_sign t⟩
    rw [written_eq, hspelled]
    simp only [List.append_assoc]
  exact ⟨rest, find_eq_some_iff.2 ⟨hword, name, _, _, rest, hreads, hrest, rfl⟩⟩

end Masks

end Shape

end CueCheck.Redaction
