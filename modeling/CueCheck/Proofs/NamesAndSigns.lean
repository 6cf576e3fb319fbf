import CueCheck.Proofs.Replacing
import Mathlib.Data.List.TakeWhile

/-!
Reading the front of a credential: names, whatever their case, and the signs between a name and its
value. Neither looks further than one character past what it takes.
-/

namespace CueCheck.Redaction

/-- A small letter or a joint, as the names of credentials have them. -/
def isFoldedNameChar (c : Char) : Bool := ('a' ≤ c && c ≤ 'z') || c == '-' || c == '_'

/-- A character that the name of a credential may hold. -/
def isNameChar (c : Char) : Bool := isFoldedNameChar (foldCase c)

/-- A character that may stand between the name of a credential and its value. -/
def isSign (c : Char) : Bool := Text.isBlank c || c == ':' || c == '=' || c == '"' || c == '\''

section Characters

variable {c : Char}

theorem isFoldedNameChar_iff : isFoldedNameChar c = true ↔
    (0x61 ≤ c.toNat ∧ c.toNat ≤ 0x7A) ∨ c.toNat = 0x2D ∨ c.toNat = 0x5F := by
  simp [isFoldedNameChar, Char.le_def, UInt32.le_iff_toNat_le, ← Char.toNat_inj, or_assoc]

theorem toNat_foldCase (c : Char) : (foldCase c).toNat =
    if 0x41 ≤ c.toNat ∧ c.toNat ≤ 0x5A then c.toNat + 0x20
    else if c.toNat = 0x17F then 0x73 else if c.toNat = 0x212A then 0x6B
    else if c.toNat = 0x130 ∨ c.toNat = 0x131 then 0x69 else c.toNat := by
  have hcapital : ('A' ≤ c && c ≤ 'Z') = true ↔ 0x41 ≤ c.toNat ∧ c.toNat ≤ 0x5A := by
    simp [Char.le_def, UInt32.le_iff_toNat_le]
  rw [foldCase]
  by_cases h : 0x41 ≤ c.toNat ∧ c.toNat ≤ 0x5A
  · have hvalid : (c.toNat + 0x20).isValidChar := .inl (by omega)
    rw [if_pos (hcapital.2 h), if_pos h, Char.ofNat, dif_pos hvalid]
    rfl
  · rw [if_neg (mt hcapital.1 h), if_neg h]
    simp only [Bool.or_eq_true, decide_eq_true_eq]
    split_ifs <;> rfl

theorem isNameChar_iff : isNameChar c = true ↔
    (0x41 ≤ c.toNat ∧ c.toNat ≤ 0x5A) ∨ (0x61 ≤ c.toNat ∧ c.toNat ≤ 0x7A) ∨ c.toNat = 0x2D ∨
      c.toNat = 0x5F ∨ c.toNat = 0x17F ∨ c.toNat = 0x212A ∨ c.toNat = 0x130 ∨ c.toNat = 0x131 := by
  rw [isNameChar, isFoldedNameChar_iff, toNat_foldCase]
  split_ifs <;> omega

theorem isBlank_iff : Text.isBlank c = true ↔
    (0x09 ≤ c.toNat ∧ c.toNat ≤ 0x0D) ∨ (0x1C ≤ c.toNat ∧ c.toNat ≤ 0x20) ∨ c.toNat = 0x85 ∨
      c.toNat = 0xA0 ∨ c.toNat = 0x1680 ∨ (0x2000 ≤ c.toNat ∧ c.toNat ≤ 0x200A) ∨
      c.toNat = 0x2028 ∨ c.toNat = 0x2029 ∨ c.toNat = 0x202F ∨ c.toNat = 0x205F ∨
      c.toNat = 0x3000 := by
  simp [Text.isBlank, or_assoc]

theorem isSign_iff : isSign c = true ↔ Text.isBlank c = true ∨ c.toNat = 0x3A ∨ c.toNat = 0x3D ∨
    c.toNat = 0x22 ∨ c.toNat = 0x27 := by
  simp [isSign, ← Char.toNat_inj, or_assoc]

theorem isSign_of_isBlank (h : Text.isBlank c = true) : isSign c = true := isSign_iff.2 (.inl h)

theorem isSign_of_isNameChar (h : isNameChar c = true) : isSign c = false := by
  rw [isNameChar_iff] at h
  rw [Bool.eq_false_iff, Ne, isSign_iff, isBlank_iff]
  omega

theorem isNameChar_of_isSign (h : isSign c = true) : isNameChar c = false := by
  rw [Bool.eq_false_iff]
  intro hname
  rw [isSign_of_isNameChar hname] at h
  cases h

theorem isNameChar_of_signFront {t : Text} (h : ∃ c ∈ t.head?, isSign c = true) :
    ∀ c ∈ t.head?, isNameChar c = false := by
  obtain ⟨d, hd, hsign⟩ := h
  intro c hc
  rw [Option.mem_unique hc hd]
  exact isNameChar_of_isSign hsign

theorem isBlank_of_isNameChar (h : isNameChar c = true) : Text.isBlank c = false := by
  rw [Bool.eq_false_iff]
  intro hblank
  rw [isNameChar_of_isSign (isSign_of_isBlank hblank)] at h
  cases h

end Characters

section Runs

variable {p : Char → Bool} {t run rest : Text}

theorem dropWhile_of_front (h : ∀ c ∈ t.head?, p c = false) : t.dropWhile p = t := by
  cases t with
  | nil => rfl
  | cons c t => exact List.dropWhile_cons_of_neg (by simp [h c rfl])

theorem takeWhile_append_of_front (hall : ∀ c ∈ run, p c = true)
    (hfront : ∀ c ∈ rest.head?, p c = false) : (run ++ rest).takeWhile p = run := by
  rw [List.takeWhile_append_of_pos hall]
  cases rest with
  | nil => exact List.append_nil run
  | cons c rest => rw [List.takeWhile_cons_of_neg (by simp [hfront c rfl]), List.append_nil]

theorem dropWhile_append_of_front (hall : ∀ c ∈ run, p c = true)
    (hfront : ∀ c ∈ rest.head?, p c = false) : (run ++ rest).dropWhile p = rest := by
  rw [List.dropWhile_append_of_pos hall, dropWhile_of_front hfront]

theorem front_dropWhile (p : Char → Bool) (t : Text) :
    ∀ c ∈ (t.dropWhile p).head?, p c = false := by
  intro c hc
  have h := List.head?_dropWhile_not p t
  rw [Option.mem_def.1 hc] at h
  exact h

theorem run?_eq_some_iff : run? p t = some rest ↔ ∃ run, run ≠ [] ∧ t = run ++ rest ∧
    (∀ c ∈ run, p c = true) ∧ ∀ c ∈ rest.head?, p c = false := by
  rw [run?]
  constructor
  · intro h
    split at h
    · cases h
    · next hne =>
      injection h with h
      subst h
      rw [List.isEmpty_iff] at hne
      exact ⟨_, hne, List.takeWhile_append_dropWhile.symm, fun c hc => List.mem_takeWhile_imp hc,
        front_dropWhile p t⟩
  · rintro ⟨run, hne, rfl, hall, hfront⟩
    rw [takeWhile_append_of_front hall hfront, dropWhile_append_of_front hall hfront, if_neg]
    rwa [List.isEmpty_iff]

end Runs

section Words

variable {word t found rest : Text}

theorem word?_eq_some_iff :
    word? word t = some (found, rest) ↔ t = found ++ rest ∧ found.map foldCase = word := by
  constructor
  · intro h
    refine ⟨word?_eq_append h, ?_⟩
    induction word generalizing t found with
    | nil =>
      simp only [word?, Option.some.injEq, Prod.mk.injEq] at h
      rw [← h.1]
      rfl
    | cons w ws ih =>
      cases t with
      | nil => simp [word?] at h
      | cons c t =>
        simp only [word?] at h
        split at h
        · next hc =>
          obtain ⟨⟨f, r⟩, hf, he⟩ := Option.map_eq_some_iff.1 h
          simp only [Prod.mk.injEq] at he
          obtain ⟨rfl, rfl⟩ := he
          rw [List.map_cons, hc, ih hf]
        · cases h
  · rintro ⟨rfl, rfl⟩
    induction found with
    | nil => rfl
    | cons c found ih => simp [word?, ih]

/-- What stands before the first character outside a class is fixed by the text. -/
theorem eq_of_append_eq_append {p : Char → Bool} {a b x y : Text} (h : a ++ x = b ++ y)
    (ha : ∀ c ∈ a, p c = true) (hb : ∀ c ∈ b, p c = true) (hx : ∀ c ∈ x.head?, p c = false)
    (hy : ∀ c ∈ y.head?, p c = false) : a = b ∧ x = y := by
  induction a generalizing b with
  | nil =>
    cases b with
    | nil => exact ⟨rfl, h⟩
    | cons d b =>
      have hd := hb d List.mem_cons_self
      rw [hx d (by rw [← List.nil_append x, h]; rfl)] at hd
      cases hd
  | cons c a ih =>
    cases b with
    | nil =>
      have hc := ha c List.mem_cons_self
      rw [hy c (by rw [← List.nil_append y, ← h]; rfl)] at hc
      cases hc
    | cons d b =>
      injection h with hcd h
      obtain ⟨rfl, rfl⟩ := ih h (fun e he => ha e (List.mem_cons_of_mem _ he))
        (fun e he => hb e (List.mem_cons_of_mem _ he))
      exact ⟨by rw [hcd], rfl⟩

end Words

/-- Two texts start with the same sign, or neither starts with one. -/
def SameFront (t s : Text) : Prop := ∀ c, isSign c = true → (t.head? = some c ↔ s.head? = some c)

theorem SameFront.append {t s : Text} (h : SameFront t s) (signs : Text) :
    SameFront (signs ++ t) (signs ++ s) := by
  cases signs with
  | nil => exact h
  | cons c signs => exact fun _ _ => Iff.rfl

/-- A reader that takes signs, and for which only the first character after them counts. -/
def ReadsSigns (read? : Text → Option Text) : Prop :=
  ∀ t rest, read? t = some rest → ∃ signs, t = signs ++ rest ∧ (∀ c ∈ signs, isSign c = true) ∧
    ∀ other, SameFront rest other → read? (signs ++ other) = some other

section Readers

variable {c : Char}

theorem ReadsSigns.bind {first second : Text → Option Text} (hfirst : ReadsSigns first)
    (hsecond : ReadsSigns second) : ReadsSigns fun t => (first t).bind second := by
  intro t rest h
  obtain ⟨middle, hmiddle, hrest⟩ := Option.bind_eq_some_iff.1 h
  obtain ⟨before, rfl, hbefore, hread⟩ := hfirst _ _ hmiddle
  obtain ⟨after, rfl, hafter, hread'⟩ := hsecond _ _ hrest
  refine ⟨before ++ after, (List.append_assoc ..).symm, ?_, ?_⟩
  · intro c hc
    rcases List.mem_append.1 hc with hc | hc
    · exact hbefore c hc
    · exact hafter c hc
  · intro other hother
    rw [List.append_assoc]
    exact Option.bind_eq_some_iff.2 ⟨_, hread _ (hother.append after), hread' other hother⟩

theorem readsSigns_after? (hc : isSign c = true) : ReadsSigns (Text.after? [c]) := by
  intro t rest h
  refine ⟨[c], Text.eq_append_of_after? h, by simpa using hc, ?_⟩
  intro other _
  exact Text.after?_append [c] other

theorem SameFront.not_isBlank {t s : Text} (h : SameFront t s)
    (ht : ∀ c ∈ t.head?, Text.isBlank c = false) : ∀ c ∈ s.head?, Text.isBlank c = false := by
  intro c hc
  rw [Bool.eq_false_iff]
  intro hblank
  have hmem := (h c (isSign_of_isBlank hblank)).2 hc
  rw [ht c hmem] at hblank
  cases hblank

theorem readsSigns_blanks : ReadsSigns (run? Text.isBlank) := by
  intro t rest h
  obtain ⟨blanks, hne, rfl, hall, hfront⟩ := run?_eq_some_iff.1 h
  refine ⟨blanks, rfl, fun c hc => isSign_of_isBlank (hall c hc), ?_⟩
  intro other hother
  exact run?_eq_some_iff.2 ⟨blanks, hne, rfl, hall, hother.not_isBlank hfront⟩

theorem readsSigns_trimStart : ReadsSigns fun t => some (Text.trimStart t) := by
  intro t rest h
  injection h with h
  subst h
  refine ⟨t.takeWhile Text.isBlank, List.takeWhile_append_dropWhile.symm, ?_, ?_⟩
  · exact fun c hc => isSign_of_isBlank (List.mem_takeWhile_imp hc)
  · intro other hother
    have hfront := hother.not_isBlank (front_dropWhile Text.isBlank t)
    exact congrArg some
      (dropWhile_append_of_front (fun c hc => List.mem_takeWhile_imp hc) hfront)

theorem skipQuote_of_front {t : Text} (h : ∀ c ∈ t.head?, c ≠ '"' ∧ c ≠ '\'') :
    skipQuote t = t := by
  cases t with
  | nil => rfl
  | cons c t =>
    rw [skipQuote]
    · intro rest heq
      injection heq with hc
      exact absurd hc (h c rfl).1
    · intro rest heq
      injection heq with hc
      exact absurd hc (h c rfl).2

theorem readsSigns_skipQuote : ReadsSigns fun t => some (skipQuote t) := by
  intro t rest h
  injection h with h
  by_cases hquote : ∀ c ∈ t.head?, c ≠ '"' ∧ c ≠ '\''
  · rw [← h, skipQuote_of_front hquote]
    refine ⟨[], rfl, by simp, ?_⟩
    intro other hother
    have hfront : ∀ c ∈ other.head?, c ≠ '"' ∧ c ≠ '\'' := by
      intro c hc
      constructor
      · rintro rfl
        exact (hquote _ ((hother _ (by decide)).2 hc)).1 rfl
      · rintro rfl
        exact (hquote _ ((hother _ (by decide)).2 hc)).2 rfl
    exact congrArg some (skipQuote_of_front hfront)
  · cases t with
    | nil => simp at hquote
    | cons c t =>
      simp only [List.head?_cons, Option.mem_def, Option.some.injEq, forall_eq', not_and_or,
        ne_eq, not_not] at hquote
      rcases hquote with rfl | rfl
      · exact ⟨['"'], by rw [← h]; rfl, List.forall_mem_singleton.2 (by decide), fun _ _ => rfl⟩
      · exact ⟨['\''], by rw [← h]; rfl, List.forall_mem_singleton.2 (by decide), fun _ _ => rfl⟩

theorem readsSigns_colonOrEquals :
    ReadsSigns fun t => (Text.after? [':'] t).or (Text.after? ['='] t) := by
  intro t rest h
  rcases Option.or_eq_some_iff.1 h with h | ⟨-, h⟩
  · have ht := Text.eq_append_of_after? h
    exact ⟨[':'], ht, List.forall_mem_singleton.2 (by decide), fun other _ => rfl⟩
  · have ht := Text.eq_append_of_after? h
    exact ⟨['='], ht, List.forall_mem_singleton.2 (by decide), fun other _ => rfl⟩

end Readers

end CueCheck.Redaction
