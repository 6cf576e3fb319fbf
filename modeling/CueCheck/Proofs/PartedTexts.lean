import CueCheck.Proofs.RewrittenTexts
import Mathlib.Data.List.Infix

/-!
Scanning a text in two parts. Where the first part does not end inside a credential, each is scanned
as if it stood alone; where it does, the credential takes what goes on as its value.
-/

namespace CueCheck.Redaction

section Fronts

variable {p : Char → Bool} {t x : Text}

/-- One of the two texts is the front of the other, but for case. -/
def Meets (w t : Text) : Prop := w <+: t.map foldCase ∨ t.map foldCase <+: w

instance (w t : Text) : Decidable (Meets w t) := inferInstanceAs (Decidable (_ ∨ _))

theorem meets_of_fronts {w k t : Text} (hw : w <+: t) (hk : k <+: t) :
    Meets (w.map foldCase) k := by
  rcases List.prefix_or_prefix_of_prefix hw hk with h | h
  · exact .inl (h.map foldCase)
  · exact .inr (h.map foldCase)

/-- A word at the front of two texts together is a word of the first if no end of it goes on in the
second. -/
theorem exists_append_of_apart {front word after : Text} (hx : front <+: x)
    (heq : t ++ x = word ++ after)
    (h : ∀ z, z ≠ [] → t.map foldCase ++ z = word.map foldCase → ¬ Meets z front) :
    ∃ back, t = word ++ back ∧ after = back ++ x := by
  rcases List.append_eq_append_iff.1 heq with ⟨z, rfl, hz⟩ | hback
  · cases z with
    | nil => exact ⟨[], by simp, hz.symm⟩
    | cons c z =>
      have hmeets := meets_of_fronts ⟨after, hz.symm⟩ hx
      exact absurd hmeets (h _ (by simp) (by simp))
  · exact hback

/-- A run from the start of one text does not go on in the next. -/
def Stops (p : Char → Bool) (t x : Text) : Prop :=
  (¬ ∀ c ∈ t, p c = true) ∨ ∀ c ∈ x.head?, p c = false

theorem Stops.append (h : Stops p t x) :
    (t ++ x).takeWhile p = t.takeWhile p ∧ (t ++ x).dropWhile p = t.dropWhile p ++ x := by
  induction t with
  | nil =>
    have hfront : ∀ c ∈ x.head?, p c = false := h.resolve_left (by simp)
    exact ⟨takeWhile_append_of_front (List.forall_mem_nil _) hfront, dropWhile_of_front hfront⟩
  | cons c t ih =>
    by_cases hc : p c = true
    · have ht : Stops p t x := h.imp_left fun hnot hall => hnot (List.forall_mem_cons.2 ⟨hc, hall⟩)
      rw [List.cons_append, List.takeWhile_cons_of_pos hc, List.takeWhile_cons_of_pos hc,
        List.dropWhile_cons_of_pos hc, List.dropWhile_cons_of_pos hc, (ih ht).1, (ih ht).2]
      exact ⟨rfl, rfl⟩
    · rw [List.cons_append, List.takeWhile_cons_of_neg hc, List.takeWhile_cons_of_neg hc,
        List.dropWhile_cons_of_neg hc, List.dropWhile_cons_of_neg hc]
      exact ⟨rfl, rfl⟩

theorem Stops.run?_append (h : Stops p t x) : run? p (t ++ x) = (run? p t).map (· ++ x) := by
  rw [run?, run?, h.append.1, h.append.2]
  split <;> rfl

end Fronts

namespace Shape

/-- Whatever stands before a text with this front, neither a name nor the word before a value nor the
signs between them go on in it. -/
structure Seam (s : Shape) (front : Text) : Prop where
  sign : ∃ c ∈ front.head?, isSign c = false
  names : ∀ w ∈ s.names, ∀ z ∈ w.tail.tails, z ≠ [] → ¬ Meets z front
  scheme : ∀ w ∈ s.scheme, ∀ z ∈ w.tails, z ≠ [] → ¬ Meets z front

/-- A credential starts at the front of the text, and the text ends where its value may go on. -/
def OpenAt (s : Shape) (before : Option Char) (t : Text) : Prop :=
  (s.startsWord = true → atWordStart before = true) ∧ ∃ name after value,
    s.Reads t name after value ∧ ∀ c ∈ (s.afterScheme? value).getD value, s.inValue c = true

/-- The scan of the text comes to a credential whose value may go on at the end of it. -/
inductive Open (s : Shape) : Option Char → Text → Prop where
  | here {before : Option Char} {t : Text} (h : s.OpenAt before t) : s.Open before t
  | keep {before : Option Char} {c : Char} {t : Text} (hnone : s.find before (c :: t) = none)
      (hrest : s.Open (some c) t) : s.Open before (c :: t)
  | replace {before : Option Char} {taken replacement rest : Text} (hne : taken ≠ [])
      (hfound : s.find before (taken ++ rest) = some ⟨replacement, rest⟩)
      (hrest : s.Open taken.getLast? rest) : s.Open before (taken ++ rest)

section

variable {s : Shape} {before : Option Char} {front t u x y name after value rest : Text}

theorem Seam.name_append (h : s.Seam front) (hx : front <+: x) (ht : t ≠ [])
    (hnamed : name.map foldCase ∈ s.names) (heq : t ++ x = name ++ after) :
    ∃ back, t = name ++ back ∧ after = back ++ x := by
  apply exists_append_of_apart hx heq
  intro z hne hz
  apply h.names _ hnamed z _ hne
  rw [List.mem_tails, ← hz]
  cases t with
  | nil => exact absurd rfl ht
  | cons c t => exact List.suffix_append ..

theorem Seam.not_isSign (h : s.Seam front) (hx : front <+: x) :
    ∃ c ∈ x.head?, isSign c = false := by
  obtain ⟨c, hc, hsign⟩ := h.sign
  obtain ⟨z, rfl⟩ := hx
  exact ⟨c, List.mem_head?_append_of_mem_head? hc, hsign⟩

theorem Seam.sameFront (h : s.Seam front) (hx : front <+: x) (t : Text) : SameFront (t ++ x) t := by
  cases t with
  | nil =>
    obtain ⟨c, hc, hsign⟩ := h.not_isSign hx
    intro d hd
    refine iff_of_false ?_ (by simp)
    intro hhead
    rw [Option.mem_unique hhead hc, hsign] at hd
    cases hd
  | cons c t => exact fun _ _ => Iff.rfl

theorem Seam.reads_append_iff (h : s.Seam front) (hx : front <+: x) (ht : t ≠ []) :
    s.Reads (t ++ x) name after value ↔ ∃ back credential,
      after = back ++ x ∧ value = credential ++ x ∧ s.Reads t name back credential := by
  constructor
  · intro hreads
    obtain ⟨back, rfl, rfl⟩ := h.name_append hx ht hreads.named hreads.eq_append
    obtain ⟨c, signs, heq, hsigns, hlead⟩ := hreads.exists_signs
    have hsplit : ∃ credential, back = c :: signs ++ credential ∧ value = credential ++ x := by
      rcases List.append_eq_append_iff.1 heq with ⟨z, hz, hx'⟩ | hback
      · cases z with
        | nil => exact ⟨[], by rw [hz]; simp, hx'.symm⟩
        | cons d z =>
          obtain ⟨e, he, hsign⟩ := h.not_isSign hx
          rw [hx'] at he
          injection he with he
          rw [← he, hsigns d (by rw [hz]; simp)] at hsign
          cases hsign
      · exact hback
    obtain ⟨credential, rfl, rfl⟩ := hsplit
    refine ⟨_, credential, rfl, rfl, rfl, hreads.named, ?_⟩
    exact hlead _ (h.sameFront hx credential)
  · rintro ⟨back, credential, rfl, rfl, hreads⟩
    obtain ⟨c, signs, rfl, -, hlead⟩ := hreads.exists_signs
    refine ⟨?_, hreads.named, ?_⟩
    · rw [hreads.eq_append, List.append_assoc]
    · rw [List.append_assoc]
      exact hlead _ fun e he => (h.sameFront hx credential e he).symm

theorem Seam.word?_append {w : Text} (h : s.Seam front) (hx : front <+: x) (hw : w ∈ s.scheme) :
    word? w (t ++ x) = (word? w t).map fun found => (found.1, found.2 ++ x) := by
  cases hword : word? w t with
  | some found =>
    obtain ⟨rfl, hfold⟩ := word?_eq_some_iff.1 hword
    exact word?_eq_some_iff.2 ⟨List.append_assoc .., hfold⟩
  | none =>
    cases hword' : word? w (t ++ x) with
    | none => rfl
    | some found =>
      obtain ⟨heq, rfl⟩ := word?_eq_some_iff.1 hword'
      obtain ⟨back, rfl, -⟩ := exists_append_of_apart hx heq fun z hne hz =>
        h.scheme _ hw z ((List.mem_tails ..).2 ⟨_, hz⟩) hne
      rw [word?_eq_some_iff.2 ⟨rfl, rfl⟩] at hword
      cases hword

theorem Seam.afterScheme?_append (h : s.Seam front) (hx : front <+: x) :
    s.afterScheme? (t ++ x) = (s.afterScheme? t).map (· ++ x) := by
  have hblank : ∀ t, Stops Text.isBlank t x := by
    obtain ⟨c, hc, hsign⟩ := h.not_isSign hx
    refine fun t => .inr fun d hd => ?_
    rw [Option.mem_unique hd hc, Bool.eq_false_iff]
    intro hblank
    rw [isSign_of_isBlank hblank] at hsign
    cases hsign
  rw [afterScheme?, afterScheme?]
  cases hscheme : s.scheme with
  | none => rfl
  | some w =>
    rw [Option.bind_some, Option.bind_some, h.word?_append hx hscheme]
    cases word? w t with
    | none => rfl
    | some found => exact (hblank found.2).run?_append

theorem value?_append (h : Stops s.inValue t x) :
    s.value? (t ++ x) = (s.value? t).map (· ++ x) := by
  rw [value?, value?, h.append.1, h.append.2]
  split <;> rfl

theorem Seam.credential?_append (h : s.Seam front) (hx : front <+: x)
    (hstops : Stops s.inValue ((s.afterScheme? t).getD t) x) :
    s.credential? (t ++ x) = (s.credential? t).map (· ++ x) := by
  rw [credential?, credential?, h.afterScheme?_append hx]
  cases hscheme : s.afterScheme? t with
  | none =>
    rw [hscheme, Option.getD_none] at hstops
    rw [value?_append hstops]
    rfl
  | some value =>
    rw [hscheme, Option.getD_some] at hstops
    obtain ⟨-, word, blanks, rfl, -⟩ := afterScheme?_eq_some hscheme
    have hstops' : Stops s.inValue (word ++ (blanks ++ value)) x :=
      hstops.imp_left fun hnot hall => hnot fun c hc => hall c (by simp [hc])
    rw [value?_append hstops', Option.map_or, Option.bind_some, Option.map_some, Option.bind_some]
    exact congrArg (Option.or · _) (value?_append hstops)

theorem Reads.find_eq (h : s.Reads t name after value) :
    s.find before t = if s.startsWord = true → atWordStart before = true then
      (s.credential? value).map fun rest => ⟨s.written name, rest⟩ else none := by
  obtain ⟨hname, hlead⟩ := reads_iff.1 h
  rw [find_eq_bind, hname, Option.bind_some, hlead, Option.bind_some]
  cases s.credential? value <;> rfl

/-- At a place that is not open, the same is found with any text at the end. -/
theorem Seam.find_append (h : s.Seam front) (hx : front <+: x) (ht : t ≠ [])
    (hopen : ¬ s.OpenAt before t ∨ ∀ c ∈ x.head?, s.inValue c = false) :
    s.find before (t ++ x) =
      (s.find before t).map fun found => ⟨found.replacement, found.rest ++ x⟩ := by
  by_cases hreads : ∃ name after value, s.Reads t name after value
  · obtain ⟨name, after, value, hreads⟩ := hreads
    have hreads' := (h.reads_append_iff hx ht).2 ⟨_, _, rfl, rfl, hreads⟩
    rw [hreads.find_eq, hreads'.find_eq]
    split
    · next hword =>
      have hstops : Stops s.inValue ((s.afterScheme? value).getD value) x :=
        hopen.imp_left fun hnot hall => hnot ⟨hword, name, after, value, hreads, hall⟩
      rw [h.credential?_append hx hstops, Option.map_map, Option.map_map]
      rfl
    · rfl
  · have hnone {t : Text} (hnot : ¬ ∃ name after value, s.Reads t name after value) :
        s.find before t = none := by
      rw [Option.eq_none_iff_forall_ne_some]
      intro found hfound
      obtain ⟨-, name, after, value, rest, hfound, -⟩ := find_eq_some_iff.1 hfound
      exact hnot ⟨name, after, value, hfound⟩
    rw [hnone hreads, hnone]
    · rfl
    · rintro ⟨name, after, value, hread⟩
      obtain ⟨back, credential, -, -, hread⟩ := (h.reads_append_iff hx ht).1 hread
      exact hreads ⟨name, back, credential, hread⟩

/-- A part that does not end inside a credential is scanned as if it stood alone. -/
theorem Seam.replaceAll_append (h : s.Seam front) (hx : front <+: x)
    (hopen : ¬ s.Open before t ∨ ∀ c ∈ x.head?, s.inValue c = false) :
    replaceAll s.find before (t ++ x) =
      replaceAll s.find before t ++ replaceAll s.find (t.getLast?.or before) x := by
  have hrewritten : Rewritten s.find before t (replaceAll s.find before t) :=
    rewritten_replaceAll s.consumes_find
  generalize replaceAll s.find before t = u at hrewritten
  induction hrewritten with
  | nil => rfl
  | @keep before c t u hnone hrest ih =>
    have hfound := h.find_append hx (List.cons_ne_nil c t) (hopen.imp_left (mt .here))
    rw [hnone, Option.map_none] at hfound
    rw [List.cons_append] at hfound ⊢
    rw [replaceAll_cons_of_none hfound, ih (hopen.imp_left (mt (.keep hnone))), getLast?_cons_or]
    rfl
  | @replace before taken replacement rest u hne hfound hrest ih =>
    have hfound' := h.find_append hx (by simp [hne]) (hopen.imp_left (mt .here))
    rw [hfound, Option.map_some, List.append_assoc] at hfound'
    rw [List.append_assoc, replaceAll_append_of_some hne hfound',
      ih (hopen.imp_left (mt (.replace hne hfound))), List.append_assoc, List.getLast?_append,
      Option.or_assoc, getLast?_or_of_ne_nil hne before]

/-- The character before a text counts only if a name may start there. -/
theorem replaceAll_of_front (h : ∀ c ∈ t.head?, isNameChar c = false) (before' : Option Char) :
    replaceAll s.find before t = replaceAll s.find before' t := by
  cases t with
  | nil => rw [replaceAll_nil, replaceAll_nil]
  | cons c t =>
    rw [replaceAll_cons_of_none (find_of_front h), replaceAll_cons_of_none (find_of_front h)]

theorem replaceAll_cons {c : Char} (hc : isNameChar c = false) :
    replaceAll s.find before (c :: t) = c :: replaceAll s.find (some c) t := by
  apply replaceAll_cons_of_none
  apply find_of_front
  intro d hd
  injection hd with hd
  rw [← hd, hc]

theorem Reads.replaceAll_eq (h : s.Reads t name after value)
    (hword : s.startsWord = true → atWordStart before = true)
    (hrest : s.credential? value = some rest) :
    replaceAll s.find before t = s.written name ++ replaceAll s.find none rest := by
  have hfound := find_eq_some_iff.2 ⟨hword, name, after, value, rest, h, hrest, rfl⟩
  obtain ⟨taken, hne, rfl⟩ := consumes_find s _ _ _ hfound
  obtain ⟨-, -, -, hfront⟩ := credential?_eq_some hrest
  rw [replaceAll_append_of_some hne hfound,
    replaceAll_of_front (fun c hc => isNameChar_of_inValue (hfront c hc))]

theorem value?_of_run (hlength : s.minLength = 1) (hne : t ≠ []) (ht : ∀ c ∈ t, s.inValue c = true)
    (hrest : ∀ c ∈ rest.head?, s.inValue c = false) : s.value? (t ++ rest) = some rest := by
  rw [value?_eq_run? hlength]
  exact run?_eq_some_iff.2 ⟨t, hne, rfl, ht, hrest⟩

/-- At an open place the credential takes what goes on as its value. -/
theorem Seam.replaceAll_of_openAt (h : s.Seam front) (hx : front <+: x ++ y)
    (hlength : s.minLength = 1) (hne : x ≠ []) (hin : ∀ c ∈ x, s.inValue c = true)
    (hy : ∀ c ∈ y.head?, s.inValue c = false)
    (hword : s.startsWord = true → atWordStart before = true) (hreads : s.Reads t name after value)
    (hvalue : ∀ c ∈ (s.afterScheme? value).getD value, s.inValue c = true) :
    replaceAll s.find before (t ++ (x ++ y)) = s.written name ++ replaceAll s.find none y := by
  have ht : t ≠ [] := by
    rw [hreads.eq_append]
    simp [ne_nil_of_named hreads.named]
  have hreads' := (h.reads_append_iff hx ht).2 ⟨_, _, rfl, rfl, hreads⟩
  have htake {t : Text} (ht : ∀ c ∈ t, s.inValue c = true) : s.value? (t ++ (x ++ y)) = some y := by
    rw [← List.append_assoc]
    apply value?_of_run hlength (by simp [hne]) _ hy
    intro c hc
    exact (List.mem_append.1 hc).elim (ht c) (hin c)
  apply hreads'.replaceAll_eq hword
  rw [credential?, h.afterScheme?_append hx]
  cases hscheme : s.afterScheme? value with
  | none =>
    rw [hscheme] at hvalue
    exact htake hvalue
  | some back =>
    rw [hscheme, Option.getD_some] at hvalue
    rw [Option.map_some, Option.bind_some, htake hvalue]
    rfl

/-- Whatever goes on as a value after the text, a scan leaves the same in its place, with a mask at
the end. -/
def Swallows (s : Shape) (front : Text) (before : Option Char) (t : Text) : Prop :=
  ∃ a, a.getLast? = some '*' ∧ ∀ x y, front <+: x ++ y → x ≠ [] → (∀ c ∈ x, s.inValue c = true) →
    (∀ c ∈ y.head?, s.inValue c = false) →
      replaceAll s.find before (t ++ (x ++ y)) = a ++ replaceAll s.find none y

theorem Seam.swallows_of_openAt (h : s.Seam front) (hlength : s.minLength = 1)
    (hopen : s.OpenAt before t) : s.Swallows front before t := by
  obtain ⟨hword, name, after, value, hreads, hvalue⟩ := hopen
  refine ⟨s.written name, s.getLast?_written name, fun x y hx hne hin hy => ?_⟩
  exact h.replaceAll_of_openAt hx hlength hne hin hy hword hreads hvalue

/-- Where a part ends inside a credential, nothing is left of the value that goes on in the next. -/
theorem Seam.swallows_of_open (h : s.Seam front) (hlength : s.minLength = 1)
    (hopen : s.Open before t) : s.Swallows front before t := by
  induction hopen with
  | here hopen => exact h.swallows_of_openAt hlength hopen
  | @keep before c t hnone hrest ih =>
    -- A place where nothing is found yet may be one where only the value is still to come.
    by_cases hopen : s.OpenAt before (c :: t)
    · exact h.swallows_of_openAt hlength hopen
    · obtain ⟨a, hlast, ha⟩ := ih
      refine ⟨c :: a, by rw [List.getLast?_cons, hlast]; rfl, fun x y hx hne hin hy => ?_⟩
      have hfound := h.find_append hx (List.cons_ne_nil c t) (.inl hopen)
      rw [hnone, Option.map_none, List.cons_append] at hfound
      rw [List.cons_append, replaceAll_cons_of_none hfound, ha x y hx hne hin hy]
      rfl
  | @replace before taken replacement rest hne hfound hrest ih =>
    by_cases hopen : s.OpenAt before (taken ++ rest)
    · exact h.swallows_of_openAt hlength hopen
    · obtain ⟨a, hlast, ha⟩ := ih
      refine ⟨replacement ++ a, by rw [List.getLast?_append, hlast]; rfl, ?_⟩
      intro x y hx hne' hin hy
      have hfound' := h.find_append hx (by simp [hne]) (.inl hopen)
      rw [hfound, Option.map_some, List.append_assoc] at hfound'
      rw [List.append_assoc, replaceAll_append_of_some hne hfound', ha x y hx hne' hin hy,
        List.append_assoc]

/-- A scan keeps the last character of a text, or ends with a mask. -/
theorem getLast?_replaceAll (before : Option Char) (t : Text) :
    (replaceAll s.find before t).getLast? = t.getLast? ∨
      (replaceAll s.find before t).getLast? = some '*' := by
  have hrewritten : Rewritten s.find before t (replaceAll s.find before t) :=
    rewritten_replaceAll s.consumes_find
  generalize replaceAll s.find before t = u at hrewritten
  induction hrewritten with
  | nil => exact .inl rfl
  | keep hnone hrest ih =>
    rw [List.getLast?_cons, List.getLast?_cons]
    rcases ih with hlast | hlast
    · exact .inl (by rw [hlast])
    · exact .inr (by rw [hlast]; rfl)
  | @replace before taken replacement rest u hne hfound hrest ih =>
    obtain ⟨name, back, -, -, rfl, -⟩ := exists_of_find hfound
    rw [← written_eq, List.getLast?_append, List.getLast?_append, getLast?_written]
    rcases ih with hlast | hlast
    · rw [hlast]
      cases rest.getLast? with
      | none => exact .inr rfl
      | some c => exact .inl rfl
    · exact .inr (by rw [hlast]; rfl)

/-- Nothing is found in a part that meets no name from any place. -/
theorem replaceAll_append_of_apart (h : ∀ z ∈ t.tails, z ≠ [] → ∀ w ∈ s.names, ¬ Meets w z)
    (x : Text) :
    replaceAll s.find before (t ++ x) = t ++ replaceAll s.find (t.getLast?.or before) x := by
  apply replaceAll_append_of_none
  intro z before hne hz
  rw [Option.eq_none_iff_forall_ne_some]
  intro found hfound
  obtain ⟨-, name, after, value, rest, hreads, -⟩ := find_eq_some_iff.1 hfound
  have hname : name <+: z ++ x := ⟨after, hreads.eq_append.symm⟩
  exact h z ((List.mem_tails ..).2 hz) hne _ hreads.named
    (meets_of_fronts hname (List.prefix_append z x))

end

end Shape

end CueCheck.Redaction
