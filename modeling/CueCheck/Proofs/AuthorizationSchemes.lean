import CueCheck.Proofs.PartedTexts

/-!
The header `Authorization` with a scheme before its credential.
-/

namespace CueCheck.Redaction

/-- A letter of ASCII. -/
def isLetter (c : Char) : Bool := ('A' ≤ c && c ≤ 'Z') || ('a' ≤ c && c ≤ 'z')

/-- The name of an authentication scheme: one or more letters. -/
def IsScheme (a : Text) : Prop := a ≠ [] ∧ ∀ c ∈ a, isLetter c = true

/-- A character without a part in how credentials are given: neither blank nor a colon nor an equals
sign. -/
def isPlain (c : Char) : Bool := !Text.isBlank c && c != ':' && c != '='

/-- A credential of a header: one or more characters, none of them blank, a comma, a colon or an
equals sign. -/
def IsCredential (v : Text) : Prop := v ≠ [] ∧ ∀ c ∈ v, (isPlain c && c != ',') = true

theorem IsCredential.isPlain {v : Text} (h : IsCredential v) : ∀ c ∈ v, isPlain c = true := by
  intro c hc
  exact ((Bool.and_eq_true ..).mp (h.2 c hc)).1

section Plain

variable {s : Shape} {before : Option Char} {t v : Text}

/-- After a name there is a blank, a colon or an equals sign. -/
def Shape.NeedsSign (s : Shape) : Prop :=
  ∀ t rest, s.lead? t = some rest → ∃ c ∈ t, isPlain c = false

theorem needsSign_of_after? {c : Char} {rest : Text} (hc : isPlain c = false)
    (h : Text.after? [c] t = some rest) : ∃ d ∈ t, isPlain d = false := by
  rw [Text.eq_append_of_after? h]
  exact ⟨c, List.mem_cons_self, hc⟩

theorem header_needsSign : headerShape.NeedsSign :=
  fun t rest h => ⟨':', List.mem_of_head? (header_colon t rest h), by decide⟩

theorem authorization_needsSign : authorizationShape.NeedsSign :=
  fun t rest h => ⟨':', List.mem_of_head? (authorization_colon t rest h), by decide⟩

theorem assignment_needsSign : assignmentShape.NeedsSign :=
  fun _ _ => needsSign_of_after? (by decide)

theorem named_needsSign : namedShape.NeedsSign := by
  intro t rest h
  obtain ⟨middle, hmiddle, -⟩ := Option.bind_eq_some_iff.1 h
  obtain ⟨signs, ht, -⟩ := (readsSigns_skipQuote.bind readsSigns_trimStart) t _ rfl
  have hsign : ∃ d ∈ Text.trimStart (skipQuote t), isPlain d = false := by
    rcases Option.or_eq_some_iff.1 hmiddle with hmiddle | ⟨-, hmiddle⟩
    · exact needsSign_of_after? (by decide) hmiddle
    · exact needsSign_of_after? (by decide) hmiddle
  obtain ⟨d, hd, hplain⟩ := hsign
  refine ⟨d, ?_, hplain⟩
  rw [ht]
  exact List.mem_append_right signs hd

theorem bearer_needsSign : bearerShape.NeedsSign := by
  intro t rest h
  obtain ⟨blanks, hne, rfl, hblanks, -⟩ := run?_eq_some_iff.1 h
  obtain ⟨c, blanks, rfl⟩ := List.exists_cons_of_ne_nil hne
  refine ⟨c, List.mem_cons_self, ?_⟩
  simp [isPlain, hblanks c List.mem_cons_self]

theorem Shape.NeedsSign.replaceAll_eq (h : s.NeedsSign) (hv : ∀ c ∈ v, isPlain c = true) :
    replaceAll s.find before v = v := by
  have hnone : ∀ z before, z ≠ [] → z <:+ v → s.find before (z ++ []) = none := by
    intro z before _ hz
    rw [Option.eq_none_iff_forall_ne_some, List.append_nil]
    intro found hfound
    obtain ⟨-, name, after, value, rest, hreads, -⟩ := Shape.find_eq_some_iff.1 hfound
    obtain ⟨c, hc, hplain⟩ := h _ _ hreads.lead
    rw [hreads.eq_append] at hz
    rw [hv c (hz.subset (List.mem_append_right name hc))] at hplain
    cases hplain
  have hscan : replaceAll s.find before (v ++ []) =
      v ++ replaceAll s.find (v.getLast?.or before) [] := replaceAll_append_of_none hnone
  rwa [List.append_nil, replaceAll_nil, List.append_nil] at hscan

end Plain

section Schemes

variable {a v : Text}

theorem isNameChar_of_isLetter {c : Char} (h : isLetter c = true) : isNameChar c = true := by
  rw [isNameChar_iff]
  simp [isLetter, Char.le_def, UInt32.le_iff_toNat_le] at h
  omega

theorem isBlank_of_isPlain {c : Char} (h : isPlain c = true) : Text.isBlank c = false := by
  rw [Bool.eq_false_iff]
  intro hblank
  simp [isPlain, hblank] at h

/-- The only scheme that is read is `Bearer`. -/
theorem afterScheme?_scheme (ha : IsScheme a) (hv : IsCredential v) :
    authorizationShape.afterScheme? (a ++ ' ' :: v) =
      if a.map foldCase = "bearer".toList then some v else none := by
  split
  · next hbearer =>
    rw [Shape.afterScheme?, show authorizationShape.scheme = some "bearer".toList from rfl,
      Option.bind_some, word?_eq_some_iff.2 ⟨rfl, hbearer⟩, Option.bind_some]
    have hblank : ∀ c ∈ [' '], Text.isBlank c = true := List.forall_mem_singleton.2 (by decide)
    refine run?_eq_some_iff.2 ⟨[' '], by simp, rfl, hblank, fun c hc => ?_⟩
    exact isBlank_of_isPlain (hv.isPlain c (List.mem_of_head? hc))
  · next hother =>
    rw [Option.eq_none_iff_forall_ne_some]
    intro rest hrest
    obtain ⟨-, word, blanks, heq, hword, hne, hblanks, -⟩ := Shape.afterScheme?_eq_some hrest
    obtain ⟨c, blanks, rfl⟩ := List.exists_cons_of_ne_nil hne
    -- The word and the scheme are what stands before the first blank.
    have hletters : ∀ c ∈ word, (!Text.isBlank c) = true := by
      intro c hc
      have hname := Shape.isNameChar_of_named (s := bearerShape) (List.mem_singleton.2 hword) c hc
      simp [isBlank_of_isNameChar hname]
    have hscheme : ∀ c ∈ a, (!Text.isBlank c) = true := by
      intro c hc
      simp [isBlank_of_isNameChar (isNameChar_of_isLetter (ha.2 c hc))]
    have hblank {c : Char} {t : Text} (hc : Text.isBlank c = true) :
        ∀ d ∈ (c :: t).head?, (!Text.isBlank d) = false := by
      rintro d ⟨⟩
      simp [hc]
    obtain ⟨rfl, -⟩ := eq_of_append_eq_append heq hscheme hletters (hblank (by decide))
      (hblank (hblanks c List.mem_cons_self))
    exact hother hword

/-- Only the scheme `Bearer` is taken together with its credential. -/
theorem credential?_scheme (ha : IsScheme a) (hv : IsCredential v) :
    authorizationShape.credential? (a ++ ' ' :: v) =
      if a.map foldCase = "bearer".toList then some [] else some (' ' :: v) := by
  rw [Shape.credential?, afterScheme?_scheme ha hv]
  split
  · have hvalue : authorizationShape.value? (v ++ []) = some [] := by
      refine Shape.value?_of_run rfl hv.1 (fun c hc => ?_) (by simp)
      have hcomma := ((Bool.and_eq_true ..).mp (hv.2 c hc)).2
      simp only [isHeaderChar, isBlank_of_isPlain (hv.isPlain c hc), hcomma, Bool.not_false,
        Bool.true_and, authorizationShape]
    rw [List.append_nil] at hvalue
    rw [Option.bind_some, hvalue]
    rfl
  · rw [Option.bind_none, Option.none_or]
    refine Shape.value?_of_run rfl ha.1 (fun c hc => ?_) ?_
    · exact isHeaderChar_of_isNameChar (isNameChar_of_isLetter (ha.2 c hc))
    · rintro c ⟨⟩
      decide

theorem replaceAll_scheme (ha : IsScheme a) (hv : IsCredential v) :
    replaceAll authorizationShape.find none ("Authorization: ".toList ++ (a ++ ' ' :: v)) =
      if a.map foldCase = "bearer".toList then "Authorization: ***REDACTED***".toList
      else "Authorization: ***REDACTED*** ".toList ++ v := by
  have hreads : authorizationShape.Reads ("Authorization: ".toList ++ (a ++ ' ' :: v))
      "Authorization".toList (':' :: ' ' :: (a ++ ' ' :: v)) (a ++ ' ' :: v) := by
    have hfront : "Authorization: ".toList = "Authorization".toList ++ [':', ' '] := by
      decide +kernel
    refine ⟨by rw [hfront]; simp, by decide +kernel, ?_⟩
    have hblank : ∀ c ∈ [' '], Text.isBlank c = true := List.forall_mem_singleton.2 (by decide)
    refine run?_eq_some_iff.2 ⟨[' '], by simp, rfl, hblank, fun c hc => ?_⟩
    obtain ⟨d, a, rfl⟩ := List.exists_cons_of_ne_nil ha.1
    injection hc with hc
    rw [← hc]
    exact isBlank_of_isNameChar (isNameChar_of_isLetter (ha.2 d List.mem_cons_self))
  have hmask : authorizationShape.written "Authorization".toList =
      "Authorization: ***REDACTED***".toList := by
    decide +kernel
  have hcredential := credential?_scheme ha hv
  by_cases hbearer : a.map foldCase = "bearer".toList
  · rw [if_pos hbearer] at hcredential ⊢
    rw [hreads.replaceAll_eq (fun h => nomatch h) hcredential, hmask, replaceAll_nil,
      List.append_nil]
  · rw [if_neg hbearer] at hcredential ⊢
    rw [hreads.replaceAll_eq (fun h => nomatch h) hcredential, hmask,
      Shape.replaceAll_cons (by decide),
      authorization_needsSign.replaceAll_eq hv.isPlain, ← List.singleton_append,
      ← List.append_assoc]
    exact congrArg (· ++ v) (by decide +kernel)

/-- After the header nothing of its credential is found. -/
theorem scanFor_scheme (hv : ∀ c ∈ v, isPlain c = true) :
    scanFor [headerShape, assignmentShape, namedShape, bearerShape]
        ("Authorization: ***REDACTED*** ".toList ++ v) =
      "Authorization: ***REDACTED*** ".toList ++ v := by
  have hscan {s : Shape} (hneeds : s.NeedsSign)
      (hapart : ∀ z ∈ "Authorization: ***REDACTED*** ".toList.tails, z ≠ [] →
        ∀ w ∈ s.names, ¬ Meets w z) :
      replaceAll s.find none ("Authorization: ***REDACTED*** ".toList ++ v) =
        "Authorization: ***REDACTED*** ".toList ++ v := by
    rw [Shape.replaceAll_append_of_apart hapart, hneeds.replaceAll_eq hv]
  rw [scanFor_cons, hscan header_needsSign (by decide +kernel),
    scanFor_cons, hscan assignment_needsSign (by decide +kernel),
    scanFor_cons, hscan named_needsSign (by decide +kernel),
    scanFor_cons, hscan bearer_needsSign (by decide +kernel)]
  rfl

theorem scanFor_mask : scanFor [headerShape, assignmentShape, namedShape, bearerShape]
    "Authorization: ***REDACTED***".toList = "Authorization: ***REDACTED***".toList := by
  rw [scanFor_cons, scanFor_cons, scanFor_cons, scanFor_cons, ← apiKeyHeader_eq,
    ← apiKeyAssignment_eq, ← namedSecret_eq, ← bearerToken_eq]
  decide +kernel

/-- After a scheme the credential of the header is masked only if the scheme is `Bearer`; after any
other it is seen as it is. -/
theorem redact_authorization_scheme (ha : IsScheme a) :
    (∀ v, IsCredential v → redact ("Authorization: ".toList ++ a ++ [' '] ++ v) =
      if a.map foldCase = "bearer".toList then "Authorization: ***REDACTED***".toList
      else "Authorization: ***REDACTED*** ".toList ++ v) ∧
    ((∀ v v', IsCredential v → IsCredential v' →
      redact ("Authorization: ".toList ++ a ++ [' '] ++ v) =
        redact ("Authorization: ".toList ++ a ++ [' '] ++ v')) ↔
      a.map foldCase = "bearer".toList) := by
  have hredact : ∀ v, IsCredential v → redact ("Authorization: ".toList ++ a ++ [' '] ++ v) =
      if a.map foldCase = "bearer".toList then "Authorization: ***REDACTED***".toList
      else "Authorization: ***REDACTED*** ".toList ++ v := by
    intro v hv
    simp only [List.append_assoc, List.singleton_append]
    rw [redact_eq_scanFor, scanFor_cons, replaceAll_scheme ha hv]
    split
    · exact scanFor_mask
    · exact scanFor_scheme hv.isPlain
  refine ⟨hredact, ?_, ?_⟩
  · intro hsame
    have hzero : IsCredential ['0'] := ⟨by decide, List.forall_mem_singleton.2 (by decide)⟩
    have hone : IsCredential ['1'] := ⟨by decide, List.forall_mem_singleton.2 (by decide)⟩
    by_contra hother
    have heq := hsame _ _ hzero hone
    rw [hredact _ hzero, hredact _ hone, if_neg hother, if_neg hother] at heq
    cases List.append_cancel_left heq
  · intro hbearer v v' hv hv'
    rw [hredact v hv, hredact v' hv', if_pos hbearer, if_pos hbearer]

/-- The scheme is read whatever its case. -/
theorem redact_authorization_bearer :
    redact ("Authorization: ".toList ++ "bEaReR".toList ++ [' '] ++ "dXNlcjpwdw".toList) =
      redact ("Authorization: ".toList ++ "bEaReR".toList ++ [' '] ++ "Bearer)".toList) :=
  (redact_authorization_scheme ⟨by decide, List.all_eq_true.1 (by decide +kernel)⟩).2.2
    (by decide +kernel) _ _ ⟨by decide, List.all_eq_true.1 (by decide +kernel)⟩
    ⟨by decide, List.all_eq_true.1 (by decide +kernel)⟩

/-- With the scheme `Basic` the credential stays in the text. -/
theorem redact_authorization_basic :
    redact ("Authorization: ".toList ++ "Basic".toList ++ [' '] ++ "dXNlcjpwdw".toList) =
      "Authorization: ***REDACTED*** dXNlcjpwdw".toList ∧
    redact ("Authorization: ".toList ++ "Basic".toList ++ [' '] ++ "dXNlcjpwdw".toList) ≠
      redact ("Authorization: ".toList ++ "Basic".toList ++ [' '] ++ "b3RoZXI6cHc".toList) := by
  decide +kernel

end Schemes

end CueCheck.Redaction
