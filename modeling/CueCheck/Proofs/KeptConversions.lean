import CueCheck.Proofs.MessageConversions
import CueCheck.Proofs.RepeatedRedaction

/-!
What a redaction leaves of the conversions of a message: all of them, but for those in what it takes
for a credential. Arguments that filled the message fill what is left of it only if none is lost.
-/

namespace CueCheck

namespace Redaction

/-- The parts of a text that the scan for a finder takes, from left to right. -/
def takenBy (finder : Finder) (before : Option Char) : Text → List Text
  | [] => []
  | c :: t =>
    match finder before (c :: t) with
    | some found =>
      if _h : found.rest.length < (c :: t).length then
        (c :: t).take ((c :: t).length - found.rest.length) ::
          takenBy finder (lastBefore (c :: t) found.rest) found.rest
      else takenBy finder (some c) t
    | none => takenBy finder (some c) t
termination_by t => t.length
decreasing_by
  · exact _h
  · simp
  · simp

/-- The parts that scans for finders take, each from what the one before it leaves. -/
def takenInTurn : List Finder → Text → List Text
  | [], _ => []
  | finder :: finders, t =>
    takenBy finder none t ++ takenInTurn finders (replaceAll finder none t)

/-- All that a redaction takes for credentials, with the names before them. -/
def taken (t : Text) : List Text := takenInTurn finders t

section Taking

variable {finder : Finder} {before : Option Char} {c : Char} {t : Text}

@[simp] theorem takenBy_nil : takenBy finder before [] = [] := by
  rw [takenBy]

theorem takenBy_cons_of_none (h : finder before (c :: t) = none) :
    takenBy finder before (c :: t) = takenBy finder (some c) t := by
  rw [takenBy, h]

theorem takenBy_append_of_some {part replacement rest : Text} (hne : part ≠ [])
    (h : finder before (part ++ rest) = some ⟨replacement, rest⟩) :
    takenBy finder before (part ++ rest) = part :: takenBy finder part.getLast? rest := by
  have hlast := lastBefore_append part rest
  have hfront : (part ++ rest).take ((part ++ rest).length - rest.length) = part := by simp
  obtain ⟨c, part, rfl⟩ := List.exists_cons_of_ne_nil hne
  rw [List.cons_append] at h hlast hfront ⊢
  have hlt : rest.length < (c :: (part ++ rest)).length := by
    rw [List.length_cons, List.length_append]
    omega
  rw [takenBy, h]
  simp only
  rw [dif_pos hlt, hlast, hfront]

end Taking

/-- What is left of conversions once parts are taken: some of them in their order, and all of them
exactly if no part holds one. -/
structure Keeps (cs kept : List Conversion) (parts : List Text) : Prop where
  sublist : kept.Sublist cs
  eq_iff : kept = cs ↔ ∀ part ∈ parts, conversions? part = some []

namespace Keeps

variable {cs kept later front lost : List Conversion} {part : Text} {parts more : List Text}

theorem refl (cs : List Conversion) : Keeps cs cs [] :=
  ⟨List.Sublist.refl cs, iff_of_true rfl (List.forall_mem_nil _)⟩

theorem trans (h : Keeps cs kept parts) (hlater : Keeps kept later more) :
    Keeps cs later (parts ++ more) := by
  refine ⟨hlater.sublist.trans h.sublist, ?_⟩
  rw [List.forall_mem_append, ← h.eq_iff, ← hlater.eq_iff]
  constructor
  · rintro rfl
    have heq := h.sublist.antisymm hlater.sublist
    exact ⟨heq, heq.symm⟩
  · rintro ⟨rfl, rfl⟩
    rfl

theorem append_left (h : Keeps cs kept parts) (front : List Conversion) :
    Keeps (front ++ cs) (front ++ kept) parts :=
  ⟨h.sublist.append_left front, by rw [List.append_cancel_left_eq, h.eq_iff]⟩

theorem cons (h : Keeps cs kept parts) (hpart : conversions? part = some lost) :
    Keeps (lost ++ cs) kept (part :: parts) := by
  refine ⟨h.sublist.trans (List.sublist_append_right lost cs), ?_⟩
  rw [List.forall_mem_cons, hpart, ← h.eq_iff, Option.some_inj]
  constructor
  · intro heq
    have hle := h.sublist.length_le
    rw [heq, List.length_append] at hle
    obtain rfl : lost = [] := List.length_eq_zero_iff.1 (by omega)
    exact ⟨rfl, heq⟩
  · rintro ⟨rfl, rfl⟩
    rfl

end Keeps

section Scanning

variable {s : Shape} {before : Option Char} {started : Bool} {t u part replacement rest : Text}
  {cs : List Conversion}

theorem percent_not_mem_of_isNameChar {w : Text} (h : ∀ c ∈ w, isNameChar c = true) : '%' ∉ w :=
  fun hmem => absurd (h _ hmem) (by decide)

theorem percent_not_mem_of_isSign {w : Text} (h : ∀ c ∈ w, isSign c = true) : '%' ∉ w :=
  fun hmem => absurd (h _ hmem) (by decide)

/-- A percent sign in a credential stands in its value. -/
theorem Shape.inValue_percent_of_credential? (h : s.credential? (part ++ rest) = some rest)
    (hmem : '%' ∈ part) : s.inValue '%' = true := by
  have hvalue {t : Text} (h : s.value? (t ++ rest) = some rest) (hmem : '%' ∈ t) :
      s.inValue '%' = true := by
    obtain ⟨value, -, heq, hall, -⟩ := value?_eq_some h
    rw [List.append_cancel_right heq] at hmem
    exact hall _ hmem
  rcases Option.or_eq_some_iff.1 h with h | ⟨-, h⟩
  · obtain ⟨value, hscheme, h⟩ := Option.bind_eq_some_iff.1 h
    obtain ⟨-, word, blanks, heq, hword, -, hblanks, -⟩ := afterScheme?_eq_some hscheme
    obtain ⟨back, -, rfl, -, -⟩ := value?_eq_some h
    rw [← List.append_assoc, ← List.append_assoc] at heq
    rw [List.append_cancel_right heq, List.append_assoc] at hmem
    have hname := isNameChar_of_named (s := bearerShape) (List.mem_singleton.2 hword)
    rcases List.mem_append.1 hmem with hmem | hmem
    · exact absurd hmem (percent_not_mem_of_isNameChar hname)
    rcases List.mem_append.1 hmem with hmem | hmem
    · exact absurd hmem
        (percent_not_mem_of_isSign fun c hc => isSign_of_isBlank (hblanks c hc))
    · exact hvalue h hmem
  · exact hvalue h hmem

/-- A finder takes a name and more; a percent sign in it stands in the value. -/
theorem Shape.inValue_percent_of_find {name back : Text} (hnamed : name.map foldCase ∈ s.names)
    (h : s.find before (name ++ back ++ rest) = some ⟨replacement, rest⟩) (hmem : '%' ∈ back) :
    s.inValue '%' = true := by
  obtain ⟨-, other, after, value, rest', hreads, hrest, hfound⟩ := find_eq_some_iff.1 h
  injection hfound with _ hrest'
  subst hrest'
  obtain ⟨c, signs, rfl, hsigns, -⟩ := hreads.exists_signs
  have heq := hreads.eq_append
  rw [List.append_assoc] at heq
  obtain rfl := eq_of_named hnamed hreads.named heq
  obtain ⟨credential, -, rfl, -⟩ := credential?_eq_some hrest
  have hback := List.append_cancel_left heq
  rw [← List.append_assoc] at hback
  rw [List.append_cancel_right hback] at hmem
  rcases List.mem_append.1 hmem with hmem | hmem
  · exact absurd hmem (percent_not_mem_of_isSign hsigns)
  · exact inValue_percent_of_credential? hrest hmem

/-- A shape writes no name otherwise than it stands that may end a conversion. -/
def Shape.KeepsEndings (s : Shape) : Prop :=
  s.spelling = none ∨ ∀ w ∈ s.names, w.head?.bind Conversion.ofLetter? = none

instance (s : Shape) : Decidable s.KeepsEndings := inferInstanceAs (Decidable (_ ∨ _))

theorem Shape.KeepsEndings.ending_spelled {name : Text} (hs : s.KeepsEndings)
    (hnamed : name.map foldCase ∈ s.names) (h : ending started name = some cs) :
    ending started (s.spelled name) = some cs := by
  cases started with
  | false => exact h
  | true =>
    rcases hs with hs | hs
    · rwa [spelled, hs]
    · obtain ⟨k, hk, -⟩ := Option.map_eq_some_iff.1 h
      obtain ⟨c, hc, hletter⟩ := Option.bind_eq_some_iff.1 hk
      obtain rfl := Conversion.ofLetter?_eq_some_iff.1 hletter
      have hnone := hs _ hnamed
      rw [List.head?_map, hc] at hnone
      cases k <;> cases hnone

/-- What is written for a credential ends a conversion as the name does that stood there. What the
value held is lost, and the text after it starts outside a conversion. -/
theorem Shape.KeepsEndings.conversions_of_find (hs : s.KeepsEndings)
    (hfound : s.find before (part ++ rest) = some ⟨replacement, rest⟩)
    (h : conversionsFrom started (part ++ rest) = some cs) :
    ∃ front lost later, cs = front ++ (lost ++ later) ∧ conversions? part = some lost ∧
      conversions? rest = some later ∧
        ∀ u, conversionsFrom started (replacement ++ u) = (conversions? u).map (front ++ ·) := by
  obtain ⟨name, back, rfl, hnamed, rfl, hfront⟩ := exists_of_find hfound
  have hname := percent_not_mem_of_isNameChar (isNameChar_of_named hnamed)
  rw [List.append_assoc, conversionsFrom_word (ne_nil_of_named hnamed) hname] at h
  obtain ⟨front, hending, h⟩ := Option.bind_eq_some_iff.1 h
  obtain ⟨cs', hcs, rfl⟩ := Option.map_eq_some_iff.1 h
  have hsplit : ∃ lost later, conversions? back = some lost ∧ conversions? rest = some later ∧
      cs' = lost ++ later := by
    by_cases hback : '%' ∈ back
    · -- A value that may hold percent signs does not stop within a conversion.
      have hin := inValue_percent_of_find hnamed hfound hback
      apply exists_of_conversionsFrom_append _ hcs
      apply conversionsFrom_true_eq_none
      intro c hc
      have hother {d : Char} (hd : s.inValue d = true) : c ≠ d := by
        rintro rfl
        rw [hfront c hc] at hd
        cases hd
      exact ⟨hother hin, hother (s.inValue_name _ (by decide)),
        hother (s.inValue_name _ (by decide))⟩
    · rw [conversionsFrom_append_of_plain hback] at hcs
      exact ⟨[], cs', conversions?_of_plain hback, hcs, rfl⟩
  obtain ⟨lost, later, hlost, hlater, rfl⟩ := hsplit
  refine ⟨front, lost, later, rfl, ?_, hlater, fun u => ?_⟩
  · rw [conversions?, conversionsFrom_append_of_plain hname]
    exact hlost
  · have hspelled := hnamed
    rw [← map_spelled hnamed] at hspelled
    have hsign := percent_not_mem_of_isSign s.sign_chars.2
    have hmask : '%' ∉ mask := by decide +kernel
    rw [List.append_assoc, List.append_assoc, conversionsFrom_word (ne_nil_of_named hspelled)
      (percent_not_mem_of_isNameChar (isNameChar_of_named hspelled)),
      hs.ending_spelled hnamed hending, conversionsFrom_append_of_plain hsign,
      conversionsFrom_append_of_plain hmask]
    rfl

/-- The step of a scan over one character, or one credential, keeps the conversions outside it. -/
theorem Rewritten.keeps (hs : s.KeepsEndings) (h : Rewritten s.find before t u)
    (hcs : conversionsFrom started t = some cs) :
    ∃ kept, conversionsFrom started u = some kept ∧ Keeps cs kept (takenBy s.find before t) := by
  induction h generalizing started cs with
  | nil => exact ⟨cs, hcs, by rw [takenBy_nil]; exact .refl cs⟩
  | keep hnone hrest ih =>
    obtain ⟨⟨new, started'⟩, hstep, hback⟩ := Option.bind_eq_some_iff.1 hcs
    obtain ⟨later, hlater, rfl⟩ := Option.map_eq_some_iff.1 hback
    obtain ⟨kept, hkept, hkeeps⟩ := ih hlater
    rw [takenBy_cons_of_none hnone]
    exact ⟨new ++ kept,
      Option.bind_eq_some_iff.2 ⟨_, hstep, Option.map_eq_some_iff.2 ⟨kept, hkept, rfl⟩⟩,
      hkeeps.append_left new⟩
  | replace hne hfound hrest ih =>
    obtain ⟨front, lost, later, rfl, hlost, hlater, hwritten⟩ := hs.conversions_of_find hfound hcs
    obtain ⟨kept, hkept, hkeeps⟩ := ih hlater
    rw [takenBy_append_of_some hne hfound]
    refine ⟨front ++ kept, ?_, (hkeeps.cons hlost).append_left front⟩
    rw [hwritten, conversions?, hkept]
    rfl

theorem exists_kept_scanFor {shapes : List Shape} (hshapes : ∀ s ∈ shapes, s.KeepsEndings)
    (h : conversions? t = some cs) : ∃ kept, conversions? (scanFor shapes t) = some kept ∧
      Keeps cs kept (takenInTurn (shapes.map Shape.find) t) := by
  induction shapes generalizing t cs with
  | nil => exact ⟨cs, h, .refl cs⟩
  | cons s shapes ih =>
    rw [List.forall_mem_cons] at hshapes
    have hrewritten : Rewritten s.find none t (replaceAll s.find none t) :=
      rewritten_replaceAll s.consumes_find
    obtain ⟨left, hleft, hfirst⟩ := hrewritten.keeps hshapes.1 h
    obtain ⟨kept, hkept, hlater⟩ := ih hshapes.2 hleft
    exact ⟨kept, hkept, hfirst.trans hlater⟩

/-- A redaction leaves the conversions of a message but those in what it takes. -/
theorem exists_kept_redact (h : conversions? t = some cs) :
    ∃ kept, conversions? (redact t) = some kept ∧ Keeps cs kept (taken t) := by
  have hshapes : finders = [authorizationShape, headerShape, assignmentShape, namedShape,
      bearerShape].map Shape.find := by
    rw [finders, authorization_eq, apiKeyHeader_eq, apiKeyAssignment_eq, namedSecret_eq,
      bearerToken_eq]
    rfl
  rw [redact_eq_scanFor, taken, hshapes]
  exact exists_kept_scanFor (by decide +kernel) h

end Scanning

end Redaction

namespace LogRecord

variable {record : LogRecord} {t : Text} {values : List Json} {cs : List Conversion}

theorem accepts_redactArgument (k : Conversion) (value : Json) :
    k.Accepts (redactArgument value) ↔ k.Accepts value := by
  cases k <;> cases value <;> exact Iff.rfl

theorem typeName_redactArgument (value : Json) :
    typeName (redactArgument value) = typeName value := by
  cases value <;> rfl

theorem exists_formatted_iff (hmessage : record.message = .text t)
    (harguments : record.arguments = .positional values) (hcs : conversions? t = some cs)
    (hle : cs.length ≤ values.length) :
    (∃ line, record.formatted = .ok line) ↔ List.Forall₂ Conversion.Accepts cs values := by
  rw [formatted, hmessage, harguments]
  cases values with
  | nil =>
    obtain rfl : cs = [] := List.length_eq_zero_iff.1 (Nat.le_zero.1 hle)
    exact iff_of_true ⟨t, rfl⟩ .nil
  | cons value values => exact exists_fill_iff (Nat.lt_succ_self _) hcs

theorem message_redact_text (hmessage : record.message = .text t) :
    record.redact.message = .text (Redaction.redact t) := by
  rw [redact, hmessage]
  cases t with
  | nil => rw [redact_nil]; rfl
  | cons c t => rfl

theorem arguments_redact_positional (harguments : record.arguments = .positional values) :
    record.redact.arguments = .positional (values.map redactArgument) := by
  rw [redact, harguments]

/-- A record that can be formatted still has arguments of the same types after a redaction, and its
conversions but for those in what was taken for a credential; it can still be formatted exactly if
none is lost. -/
theorem formatted_redact_iff (hmessage : record.message = .text t)
    (harguments : record.arguments = .positional values) (hcs : conversions? t = some cs)
    (hvalues : List.Forall₂ Conversion.Accepts cs values) :
    (∃ line, record.formatted = .ok line) ∧
    ∃ kept left, record.redact.message = .text (Redaction.redact t) ∧
      conversions? (Redaction.redact t) = some kept ∧ kept.Sublist cs ∧
      record.redact.arguments = .positional left ∧ left.map typeName = values.map typeName ∧
      (kept = cs ↔ ∀ part ∈ Redaction.taken t, conversions? part = some []) ∧
      ((∃ line, record.redact.formatted = .ok line) ↔ kept = cs) := by
  have hlength := hvalues.length_eq
  obtain ⟨kept, hkept, hkeeps⟩ := Redaction.exists_kept_redact hcs
  have hmessage' := message_redact_text hmessage
  have harguments' := arguments_redact_positional harguments
  refine ⟨(exists_formatted_iff hmessage harguments hcs hlength.le).2 hvalues, kept, _, hmessage',
    hkept, hkeeps.sublist, harguments', ?_, hkeeps.eq_iff, ?_⟩
  · simp [typeName_redactArgument]
  have hle : kept.length ≤ (values.map redactArgument).length := by
    rw [List.length_map, ← hlength]
    exact hkeeps.sublist.length_le
  rw [exists_formatted_iff hmessage' harguments' hkept hle, List.forall₂_map_right_iff]
  simp only [accepts_redactArgument]
  constructor
  · intro hfits
    exact hkeeps.sublist.eq_of_length (hfits.length_eq.trans hlength.symm)
  · rintro rfl
    exact hvalues

/-- A name that ends a conversion, and a long token after it. -/
theorem formatted_redact_iff_joined :
    let record : LogRecord :=
      { message := .text "%secret=abcdefghij0123456789, %d%%".toList
        arguments := .positional [.str "top".toList, .int 5] }
    conversions? "%secret=abcdefghij0123456789, %d%%".toList = some [.text, .number] ∧
      record.redact.message = .text "%secret=***REDACTED***, %d%%".toList ∧
      ∃ line, record.redact.formatted = .ok line := by
  intro record
  have hmessage : record.message = .text "%secret=abcdefghij0123456789, %d%%".toList := rfl
  have hcs : conversions? "%secret=abcdefghij0123456789, %d%%".toList = some [.text, .number] := by
    decide +kernel
  have hparts : ∀ part ∈ Redaction.taken "%secret=abcdefghij0123456789, %d%%".toList,
      conversions? part = some [] := by
    decide +kernel
  have hmask : Redaction.redact "%secret=abcdefghij0123456789, %d%%".toList =
      "%secret=***REDACTED***, %d%%".toList := by
    decide +kernel
  obtain ⟨-, kept, left, hredacted, -, -, -, -, hkept, hformatted⟩ :=
    formatted_redact_iff hmessage rfl hcs (.cons trivial (.cons trivial .nil))
  rw [hmask] at hredacted
  exact ⟨hcs, hredacted, hformatted.2 (hkept.2 hparts)⟩

/-- The conversion in the value of a header is masked with it, and the record is lost. -/
theorem formatted_redact_header :
    let record : LogRecord :=
      { message := .text "X-API-Key: %s ok".toList
        arguments := .positional [.str "absent".toList] }
    conversions? "X-API-Key: %s ok".toList = some [.text] ∧
      record.formatted = .ok "X-API-Key: absent ok".toList ∧
      record.redact.message = .text "X-API-Key: ***REDACTED*** ok".toList ∧
      record.redact.formatted = .error .tooManyArguments := by
  decide +kernel

end LogRecord

end CueCheck
