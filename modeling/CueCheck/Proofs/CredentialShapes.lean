import CueCheck.Proofs.NamesAndSigns

/-!
The finders of credentials as readings of five shapes: a name, signs, and a value.
-/

namespace CueCheck.Redaction

/-- A name, signs and a value, with what is written for them. -/
structure Shape where
  names : List Text
  /-- Whether the name has to start a word. -/
  startsWord : Bool := false
  /-- Reads the signs after the name. -/
  lead? : Text → Option Text
  /-- A word that may stand before the value. -/
  scheme : Option Text := none
  inValue : Char → Bool
  minLength : Nat := 1
  /-- How the name is written, if not as it stands. -/
  spelling : Option Text := none
  /-- What is written between the name and the mask. -/
  sign : Text
  name_chars : ∀ w ∈ names, w ≠ [] ∧ w.all isFoldedNameChar = true
  eq_of_front : ∀ v ∈ names, ∀ w ∈ names, v <+: w → v = w
  not_in_mask : ∀ w ∈ names, ¬ w <:+: mask.map foldCase
  readsSigns : ReadsSigns lead?
  length_lead : ∀ t rest, lead? t = some rest → rest.length < t.length
  sign_chars : sign ≠ [] ∧ ∀ c ∈ sign, isSign c = true
  lead_sign : ∀ t, lead? (sign ++ (mask ++ t)) = some (mask ++ t)
  inValue_name : ∀ c, isNameChar c = true → inValue c = true
  inValue_blank : ∀ c, Text.isBlank c = true → inValue c = false
  length_cases : minLength = 1 ∨ 0 < minLength ∧ ∀ c, isSign c = true → inValue c = false
  scheme_spec : ∀ w ∈ scheme, w = "bearer".toList ∧ minLength = 1
  mask_cases : minLength = 1 ∧ (∀ c ∈ mask, inValue c = true) ∨ inValue '*' = false
  spelling_spec : ∀ w ∈ spelling, ∀ v ∈ names, v = w.map foldCase

namespace Shape

variable (s : Shape)

def name? (t : Text) : Option (Text × Text) := s.names.findSome? fun w => word? w t

/-- The text after a value at the front. -/
def value? (t : Text) : Option Text :=
  if s.minLength ≤ (t.takeWhile s.inValue).length then some (t.dropWhile s.inValue) else none

/-- The text after a word that may stand before the value, and blanks. -/
def afterScheme? (t : Text) : Option Text :=
  s.scheme.bind fun w => (word? w t).bind fun found => run? Text.isBlank found.2

/-- The text after the value, with the word before it if there is one. -/
def credential? (t : Text) : Option Text := ((s.afterScheme? t).bind s.value?).or (s.value? t)

/-- What is written for a credential that is given under a name. -/
def written (name : Text) : Text := s.spelling.getD name ++ s.sign ++ mask

def find : Finder := fun before t => do
  guard (!s.startsWord || atWordStart before)
  let (name, t) ← s.name? t
  let t ← s.lead? t
  let rest ← s.credential? t
  return ⟨s.written name, rest⟩

theorem find_eq_bind (before : Option Char) (t : Text) :
    s.find before t = if s.startsWord = true → atWordStart before = true then
      (s.name? t).bind fun named => (s.lead? named.2).bind fun t =>
        (s.credential? t).bind fun rest => some ⟨s.written named.1, rest⟩
    else none := by
  rw [find]
  cases s.startsWord <;> cases atWordStart before <;> rfl

variable {s}

theorem name?_of_names {w : Text} (h : s.names = [w]) (t : Text) : s.name? t = word? w t := by
  simp [name?, h]

theorem value?_eq_run? (h : s.minLength = 1) (t : Text) : s.value? t = run? s.inValue t := by
  rw [value?, h, run?]
  cases t.takeWhile s.inValue <;> simp

theorem credential?_of_scheme (h : s.scheme = none) (t : Text) : s.credential? t = s.value? t := by
  rw [credential?, afterScheme?, h]
  rfl

end Shape

section Characters

variable {c : Char}

theorem isTokenChar_iff : isTokenChar c = true ↔
    isNameChar c = true ∨ (0x30 ≤ c.toNat ∧ c.toNat ≤ 0x39) ∨ c.toNat = 0x2E := by
  have hfold : isTokenChar c = true ↔ isFoldedNameChar (foldCase c) = true ∨
      (0x30 ≤ (foldCase c).toNat ∧ (foldCase c).toNat ≤ 0x39) ∨ (foldCase c).toNat = 0x2E := by
    simp only [isTokenChar, isFoldedNameChar_iff, Bool.or_eq_true, Bool.and_eq_true,
      decide_eq_true_eq, beq_iff_eq, Char.le_def, UInt32.le_iff_toNat_le, ← Char.toNat_inj]
    simp only [Char.toNat_val]
    rw [show 'a'.toNat = 0x61 from rfl, show 'z'.toNat = 0x7A from rfl,
      show '0'.toNat = 0x30 from rfl, show '9'.toNat = 0x39 from rfl,
      show '_'.toNat = 0x5F from rfl, show '-'.toNat = 0x2D from rfl,
      show '.'.toNat = 0x2E from rfl]
    omega
  rw [hfold, isNameChar, isFoldedNameChar_iff, toNat_foldCase]
  split_ifs <;> omega

theorem isHeaderChar_iff : isHeaderChar c = true ↔ Text.isBlank c = false ∧ c.toNat ≠ 0x2C := by
  simp [isHeaderChar, ← Char.toNat_inj]

theorem isHeaderChar_of_isNameChar (h : isNameChar c = true) : isHeaderChar c = true := by
  rw [isNameChar_iff] at h
  rw [isHeaderChar_iff, Bool.eq_false_iff, Ne, isBlank_iff]
  omega

theorem isAssignedChar_iff :
    isAssignedChar c = true ↔ isHeaderChar c = true ∧ c.toNat ≠ 0x29 := by
  simp [isAssignedChar, ← Char.toNat_inj]

theorem isAssignedChar_of_isNameChar (h : isNameChar c = true) : isAssignedChar c = true := by
  rw [isAssignedChar_iff]
  refine ⟨isHeaderChar_of_isNameChar h, ?_⟩
  rw [isNameChar_iff] at h
  omega

theorem isTokenChar_of_isSign (h : isSign c = true) : isTokenChar c = false := by
  rw [Bool.eq_false_iff, Ne, isTokenChar_iff, isNameChar_iff]
  rw [isSign_iff, isBlank_iff] at h
  omega

end Characters

section Lengths

variable {first second : Text → Option Text} {t rest : Text}

theorem ReadsSigns.length_le (h : ReadsSigns first) (hrest : first t = some rest) :
    rest.length ≤ t.length := by
  obtain ⟨signs, rfl, -⟩ := h _ _ hrest
  simp

theorem length_after? {c : Char} (h : Text.after? [c] t = some rest) : rest.length < t.length := by
  rw [Text.eq_append_of_after? h]
  simp

theorem length_run? {p : Char → Bool} (h : run? p t = some rest) : rest.length < t.length := by
  obtain ⟨run, hne, rfl, -⟩ := run?_eq_some_iff.1 h
  have hpos := List.length_pos_iff.2 hne
  rw [List.length_append]
  omega

end Lengths

/-- The header `Authorization`. -/
def authorizationShape : Shape where
  names := ["authorization".toList]
  lead? t := (Text.after? [':'] t).bind (run? Text.isBlank)
  scheme := some "bearer".toList
  inValue := isHeaderChar
  sign := [':', ' ']
  name_chars := by decide +kernel
  eq_of_front := by decide +kernel
  not_in_mask := by decide +kernel
  readsSigns := (readsSigns_after? (by decide)).bind readsSigns_blanks
  length_lead t rest h := by
    obtain ⟨middle, hmiddle, hrest⟩ := Option.bind_eq_some_iff.1 h
    exact (length_run? hrest).trans (length_after? hmiddle)
  sign_chars := ⟨by decide, List.all_eq_true.1 (by decide)⟩
  lead_sign _ := rfl
  inValue_name _ := isHeaderChar_of_isNameChar
  inValue_blank c h := by simp [isHeaderChar, h]
  length_cases := .inl rfl
  scheme_spec := by simp
  mask_cases := .inl ⟨rfl, List.all_eq_true.1 (by decide +kernel)⟩
  spelling_spec := by simp

/-- The header `X-API-Key`. -/
def headerShape : Shape where
  names := ["x-api-key".toList]
  lead? t := (Text.after? [':'] t).bind fun t => some (Text.trimStart t)
  inValue := isHeaderChar
  sign := [':', ' ']
  name_chars := by decide +kernel
  eq_of_front := by decide +kernel
  not_in_mask := by decide +kernel
  readsSigns := (readsSigns_after? (by decide)).bind readsSigns_trimStart
  length_lead t rest h := by
    obtain ⟨middle, hmiddle, hrest⟩ := Option.bind_eq_some_iff.1 h
    exact (readsSigns_trimStart.length_le hrest).trans_lt (length_after? hmiddle)
  sign_chars := ⟨by decide, List.all_eq_true.1 (by decide)⟩
  lead_sign _ := rfl
  inValue_name _ := isHeaderChar_of_isNameChar
  inValue_blank c h := by simp [isHeaderChar, h]
  length_cases := .inl rfl
  scheme_spec := by simp
  mask_cases := .inl ⟨rfl, List.all_eq_true.1 (by decide +kernel)⟩
  spelling_spec := by simp

/-- An assignment to `API_KEY`. -/
def assignmentShape : Shape where
  names := ["api_key".toList]
  startsWord := true
  lead? := Text.after? ['=']
  inValue := isAssignedChar
  sign := ['=']
  name_chars := by decide +kernel
  eq_of_front := by decide +kernel
  not_in_mask := by decide +kernel
  readsSigns := readsSigns_after? (by decide)
  length_lead _ _ := length_after?
  sign_chars := ⟨by decide, List.all_eq_true.1 (by decide)⟩
  lead_sign _ := rfl
  inValue_name _ := isAssignedChar_of_isNameChar
  inValue_blank c h := by simp [isAssignedChar, isHeaderChar, h]
  length_cases := .inl rfl
  scheme_spec := by simp
  mask_cases := .inl ⟨rfl, List.all_eq_true.1 (by decide +kernel)⟩
  spelling_spec := by simp

/-- A long token that is given under one of several names. -/
def namedShape : Shape where
  names := ["api_key".toList, "api-key".toList, "apikey".toList, "token".toList, "secret".toList,
    "password".toList]
  lead? t := ((Text.after? [':'] (Text.trimStart (skipQuote t))).or
    (Text.after? ['='] (Text.trimStart (skipQuote t)))).bind fun t =>
      some (skipQuote (Text.trimStart t))
  inValue := isTokenChar
  minLength := minSecretLength
  sign := ['=']
  name_chars := by decide +kernel
  eq_of_front := by decide +kernel
  not_in_mask := by decide +kernel
  readsSigns :=
    ((readsSigns_skipQuote.bind readsSigns_trimStart).bind readsSigns_colonOrEquals).bind
      (readsSigns_trimStart.bind readsSigns_skipQuote)
  length_lead t rest h := by
    obtain ⟨middle, hmiddle, hrest⟩ := Option.bind_eq_some_iff.1 h
    have hafter := (readsSigns_trimStart.bind readsSigns_skipQuote).length_le hrest
    have hbefore := (readsSigns_skipQuote.bind readsSigns_trimStart).length_le (t := t) rfl
    rcases Option.or_eq_some_iff.1 hmiddle with hmiddle | ⟨-, hmiddle⟩
    · exact hafter.trans_lt ((length_after? hmiddle).trans_le hbefore)
    · exact hafter.trans_lt ((length_after? hmiddle).trans_le hbefore)
  sign_chars := ⟨by decide, List.all_eq_true.1 (by decide)⟩
  lead_sign _ := rfl
  inValue_name _ h := isTokenChar_iff.2 (.inl h)
  inValue_blank _ h := isTokenChar_of_isSign (isSign_of_isBlank h)
  length_cases := .inr ⟨by decide, fun _ => isTokenChar_of_isSign⟩
  scheme_spec := by simp
  mask_cases := .inr (by decide)
  spelling_spec := by simp

/-- The word `Bearer` and a token. -/
def bearerShape : Shape where
  names := ["bearer".toList]
  startsWord := true
  lead? := run? Text.isBlank
  inValue c := isTokenChar c || c == '='
  spelling := some "Bearer".toList
  sign := [' ']
  name_chars := by decide +kernel
  eq_of_front := by decide +kernel
  not_in_mask := by decide +kernel
  readsSigns := readsSigns_blanks
  length_lead _ _ := length_run?
  sign_chars := ⟨by decide, List.all_eq_true.1 (by decide)⟩
  lead_sign _ := rfl
  inValue_name _ h := by simp [isTokenChar_iff.2 (.inl h)]
  inValue_blank c h := by
    rw [isTokenChar_of_isSign (isSign_of_isBlank h), Bool.false_or, beq_eq_false_iff_ne]
    rintro rfl
    cases h
  length_cases := .inl rfl
  scheme_spec := by simp
  mask_cases := .inr (by decide)
  spelling_spec := by decide +kernel

theorem authorization_colon (t rest : Text) (h : authorizationShape.lead? t = some rest) :
    t.head? = some ':' := by
  obtain ⟨middle, hmiddle, -⟩ := Option.bind_eq_some_iff.1 h
  rw [Text.eq_append_of_after? hmiddle]
  rfl

theorem header_colon (t rest : Text) (h : headerShape.lead? t = some rest) :
    t.head? = some ':' := by
  obtain ⟨middle, hmiddle, -⟩ := Option.bind_eq_some_iff.1 h
  rw [Text.eq_append_of_after? hmiddle]
  rfl

theorem authorization_eq : authorization = authorizationShape.find := by
  funext before t
  have hvalue : authorizationShape.value? = run? isHeaderChar := funext (Shape.value?_eq_run? rfl)
  have hlead (t : Text) :
      authorizationShape.lead? t = (Text.after? [':'] t).bind (run? Text.isBlank) := rfl
  have hcredential (t : Text) : authorizationShape.credential? t =
      ((word? "bearer".toList t).bind fun found =>
        (run? Text.isBlank found.2).bind (run? isHeaderChar)).or (run? isHeaderChar t) := by
    rw [Shape.credential?, hvalue, ← Option.bind_assoc]
    rfl
  rw [Shape.find_eq_bind, Shape.name?_of_names rfl, if_pos (fun h => nomatch h)]
  simp only [hlead, hcredential, Option.bind_assoc]
  rfl

theorem apiKeyHeader_eq : apiKeyHeader = headerShape.find := by
  funext before t
  have hcredential (t : Text) : headerShape.credential? t = run? isHeaderChar t := by
    rw [Shape.credential?_of_scheme rfl, Shape.value?_eq_run? rfl]
    rfl
  have hlead (t : Text) : headerShape.lead? t =
      (Text.after? [':'] t).bind fun t => some (Text.trimStart t) := rfl
  rw [Shape.find_eq_bind, Shape.name?_of_names rfl, if_pos (fun h => nomatch h)]
  simp only [hlead, hcredential, Option.bind_assoc]
  rfl

theorem apiKeyAssignment_eq : apiKeyAssignment = assignmentShape.find := by
  funext before t
  have hcredential (t : Text) : assignmentShape.credential? t = run? isAssignedChar t := by
    rw [Shape.credential?_of_scheme rfl, Shape.value?_eq_run? rfl]
    rfl
  have hwritten (name : Text) : assignmentShape.written name = name ++ '=' :: mask :=
    List.append_assoc ..
  rw [Shape.find_eq_bind, Shape.name?_of_names rfl]
  simp only [hcredential, hwritten]
  rw [apiKeyAssignment]
  cases atWordStart before <;> rfl

theorem bearerToken_eq : bearerToken = bearerShape.find := by
  funext before t
  have hcredential (t : Text) :
      bearerShape.credential? t = run? (fun c => isTokenChar c || c == '=') t := by
    rw [Shape.credential?_of_scheme rfl, Shape.value?_eq_run? rfl]
    rfl
  have hwritten (name : Text) : bearerShape.written name = "Bearer ".toList ++ mask := by
    rfl
  rw [Shape.find_eq_bind, Shape.name?_of_names rfl]
  simp only [hcredential, hwritten]
  rw [bearerToken]
  cases atWordStart before <;> rfl

theorem word?_append (v w t : Text) : word? (v ++ w) t =
    (word? v t).bind fun front => (word? w front.2).map fun back =>
      (front.1 ++ back.1, back.2) := by
  induction v generalizing t with
  | nil => simp [word?]
  | cons c v ih =>
    cases t with
    | nil => rfl
    | cons d t =>
      by_cases h : foldCase d = c
      · simp [word?, h, ih, Option.bind_map, Function.comp_def]
      · simp [word?, h]

theorem word?_joint {joint c : Char} (hjoint : joint = '_' ∨ joint = '-') (w t : Text) :
    word? (joint :: w) (c :: t) =
      if c = joint then (word? w t).map fun found => (c :: found.1, found.2) else none := by
  have hfold : foldCase c = joint ↔ c = joint := by
    rw [← Char.toNat_inj, ← Char.toNat_inj, toNat_foldCase]
    rcases hjoint with rfl | rfl
    · rw [show '_'.toNat = 0x5F from rfl]
      split_ifs <;> omega
    · rw [show '-'.toNat = 0x2D from rfl]
      split_ifs <;> omega
  rw [word?]
  simp only [hfold]

theorem secretName?_eq (t : Text) : secretName? t = namedShape.name? t := by
  have hnames : namedShape.name? t = ((word? "api_key".toList t).or
      ((word? "api-key".toList t).or (word? "apikey".toList t))).or ((word? "token".toList t).or
        ((word? "secret".toList t).or (word? "password".toList t))) := by
    simp only [Shape.name?, namedShape, List.findSome?_cons, List.findSome?_nil]
    cases word? "api_key".toList t <;> cases word? "api-key".toList t <;>
      cases word? "apikey".toList t <;> cases word? "token".toList t <;>
        cases word? "secret".toList t <;> cases word? "password".toList t <;> rfl
  rw [hnames, secretName?]
  congr 1
  rw [show "api_key".toList = "api".toList ++ '_' :: "key".toList from rfl,
    show "api-key".toList = "api".toList ++ '-' :: "key".toList from rfl,
    show "apikey".toList = "api".toList ++ "key".toList from rfl]
  simp only [word?_append]
  cases word? "api".toList t with
  | none => rfl
  | some front =>
    obtain ⟨api, t⟩ := front
    cases t with
    | nil => rfl
    | cons c t =>
      simp only [Option.bind_some, word?_joint (.inl rfl), word?_joint (.inr rfl)]
      have hkey : ∀ joint, joint = '_' ∨ joint = '-' → word? "key".toList (joint :: t) = none := by
        rintro _ (rfl | rfl) <;> rfl
      generalize "key".toList = key at hkey ⊢
      by_cases hlow : c = '_'
      · subst hlow
        rw [hkey '_' (.inl rfl)]
        cases h : word? key t <;> simp [h]
      · by_cases hhigh : c = '-'
        · subst hhigh
          rw [hkey '-' (.inr rfl)]
          cases h : word? key t <;> simp [h]
        · cases h : word? key (c :: t) <;> simp [h, hlow, hhigh]

theorem namedSecret_eq : namedSecret = namedShape.find := by
  funext before t
  have hcredential (t : Text) : namedShape.credential? t =
      if minSecretLength ≤ (t.takeWhile isTokenChar).length then some (t.dropWhile isTokenChar)
      else none := by
    rw [Shape.credential?_of_scheme rfl]
    rfl
  have hwritten (name : Text) : namedShape.written name = name ++ '=' :: mask :=
    List.append_assoc ..
  have hlead (t : Text) : namedShape.lead? t =
      ((Text.after? [':'] (Text.trimStart (skipQuote t))).or
        (Text.after? ['='] (Text.trimStart (skipQuote t)))).bind fun t =>
          some (skipQuote (Text.trimStart t)) := rfl
  rw [Shape.find_eq_bind, ← secretName?_eq, if_pos (fun h => nomatch h)]
  simp only [hlead, hcredential, hwritten, Option.bind_assoc, Option.bind_some]
  rw [namedSecret]
  cases secretName? t with
  | none => rfl
  | some named =>
    obtain ⟨name, t⟩ := named
    rw [Option.bind_eq_bind, Option.bind_some, Option.bind_some]
    refine congrArg (Option.bind _) (funext fun t => ?_)
    by_cases hlong : minSecretLength ≤ ((skipQuote (Text.trimStart t)).takeWhile isTokenChar).length
    · rw [if_pos hlong]
      exact congrArg (Option.bind · _) (if_pos hlong)
    · rw [if_neg hlong]
      exact congrArg (Option.bind · _) (if_neg hlong)

/-- One scan for each shape, in turn. -/
def scanFor (shapes : List Shape) (t : Text) : Text :=
  shapes.foldl (fun t s => replaceAll s.find none t) t

theorem scanFor_cons (s : Shape) (shapes : List Shape) (t : Text) :
    scanFor (s :: shapes) t = scanFor shapes (replaceAll s.find none t) := rfl

theorem redact_eq_scanFor : redact =
    scanFor [authorizationShape, headerShape, assignmentShape, namedShape, bearerShape] := by
  funext t
  rw [redact, finders, authorization_eq, apiKeyHeader_eq, apiKeyAssignment_eq, namedSecret_eq,
    bearerToken_eq]
  rfl

end CueCheck.Redaction
