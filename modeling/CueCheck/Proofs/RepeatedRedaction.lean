import CueCheck.Log.Record
import CueCheck.Proofs.MaskedTexts

/-!
Redacting a text once more. All that one redaction leaves to be found is assignments to `API_KEY`
whose value goes on after the mask.
-/

namespace CueCheck

namespace Redaction

/-- No value goes on after a mask that is assigned to `API_KEY`. -/
def MasksEnd (t : Text) : Prop :=
  ∀ before name c after, t = before ++ (name ++ '=' :: mask ++ c :: after) →
    name.map foldCase = "api_key".toList → atWordStart before.getLast? = true →
      isAssignedChar c = false

section Agreement

variable {f g s : Shape} {tight : Bool} {t : Text}

theorem Shape.agrees_of_names (h : ∀ v ∈ f.names, ∀ w ∈ g.names, ¬ (v <:+ w ∨ w <:+ v)) :
    f.Agrees g tight :=
  fun v hv w hw hsuffix => absurd hsuffix (h v hv w hw)

theorem Shape.agrees_self (h : ∀ v ∈ s.names, ∀ w ∈ s.names, v <:+ w ∨ w <:+ v → v = w) :
    s.Agrees s tight :=
  fun v hv w hw hsuffix => .inl ⟨h v hv w hw hsuffix, rfl, rfl, fun _ _ => id⟩

theorem Shape.Masked.scanFor {shapes : List Shape} (ht : s.Masked tight none t)
    (h : ∀ g ∈ shapes, s.Agrees g tight) : s.Masked tight none (scanFor shapes t) := by
  induction shapes generalizing t with
  | nil => exact ht
  | cons g shapes ih =>
    rw [List.forall_mem_cons] at h
    exact ih (ht.scan h.1) h.2

/-- What a shape finds is masked by the scan for it, and stays so in the later ones. -/
theorem Shape.masked_scanFor (earlier : List Shape) {later : List Shape} (hself : s.Agrees s tight)
    (h : ∀ g ∈ later, s.Agrees g tight) (t : Text) :
    s.Masked tight none (Redaction.scanFor (earlier ++ s :: later) t) := by
  rw [Redaction.scanFor, List.foldl_append]
  exact (masked_replaceAll hself _).scanFor h

end Agreement

theorem agrees_assignment_self (tight : Bool) : assignmentShape.Agrees assignmentShape tight :=
  Shape.agrees_self (by decide +kernel)

/-- The two write the same at the name they share, but a token ends at more characters. -/
theorem agrees_assignment_named : assignmentShape.Agrees namedShape false := by
  have hnames : ∀ v ∈ assignmentShape.names, ∀ w ∈ namedShape.names, v <:+ w ∨ w <:+ v → v = w := by
    decide +kernel
  intro v hv w hw hsuffix
  exact .inl ⟨hnames v hv w hw hsuffix, rfl, rfl, fun h => nomatch h⟩

/-- A mask is no long token. -/
theorem agrees_named_assignment : namedShape.Agrees assignmentShape true := by
  intro v hv w hw hsuffix
  right
  intro rest value hlead
  have hvalue := hlead.symm.trans (namedShape.lead_sign rest)
  rw [Option.some_inj.1 hvalue, Option.eq_none_iff_forall_ne_some]
  intro rest' hrest
  have hstar := (Shape.credential?_mask hrest).1
  cases hstar

/-- A header is not read where a secret is given with an equals sign. -/
theorem agrees_header_named : headerShape.Agrees namedShape true := by
  intro v hv w hw hsuffix
  right
  intro rest value hlead
  cases hlead

/-- All that the finders find in a text is masked. -/
structure AllMasked (tight : Bool) (t : Text) : Prop where
  authorization : authorizationShape.Masked true none t
  header : headerShape.Masked true none t
  assignment : assignmentShape.Masked tight none t
  named : namedShape.Masked true none t
  bearer : bearerShape.Masked true none t

theorem allMasked_redact (t : Text) : AllMasked false (redact t) := by
  rw [redact_eq_scanFor]
  constructor
  · apply Shape.masked_scanFor []
    · exact Shape.agrees_self (by decide +kernel)
    · intro g hg
      apply Shape.agrees_of_names
      revert g
      decide +kernel
  · apply Shape.masked_scanFor [authorizationShape]
    · exact Shape.agrees_self (by decide +kernel)
    · simp only [List.forall_mem_cons]
      refine ⟨?_, agrees_header_named, ?_, by simp⟩
      · exact Shape.agrees_of_names (by decide +kernel)
      · exact Shape.agrees_of_names (by decide +kernel)
  · apply Shape.masked_scanFor [authorizationShape, headerShape]
    · exact agrees_assignment_self false
    · simp only [List.forall_mem_cons]
      exact ⟨agrees_assignment_named, Shape.agrees_of_names (by decide +kernel), by simp⟩
  · apply Shape.masked_scanFor [authorizationShape, headerShape, assignmentShape]
    · exact Shape.agrees_self (by decide +kernel)
    · simp only [List.forall_mem_cons]
      exact ⟨Shape.agrees_of_names (by decide +kernel), by simp⟩
  · apply Shape.masked_scanFor [authorizationShape, headerShape, assignmentShape, namedShape]
    · exact Shape.agrees_self (by decide +kernel)
    · simp

namespace AllMasked

variable {tight : Bool} {t : Text}

theorem scan_assignment (h : AllMasked tight t) :
    AllMasked true (replaceAll assignmentShape.find none t) where
  authorization := h.authorization.scan (Shape.agrees_of_names (by decide +kernel))
  header := h.header.scan (Shape.agrees_of_names (by decide +kernel))
  assignment := Shape.masked_replaceAll (agrees_assignment_self true) t
  named := h.named.scan agrees_named_assignment
  bearer := h.bearer.scan (Shape.agrees_of_names (by decide +kernel))

/-- Only the scan for assignments can change a masked text. -/
theorem redact_eq (h : AllMasked tight t) : redact t = replaceAll assignmentShape.find none t := by
  have hscan := h.scan_assignment
  rw [redact_eq_scanFor, scanFor_cons, scanFor_cons, scanFor_cons, scanFor_cons, scanFor_cons,
    h.authorization.replaceAll_eq, h.header.replaceAll_eq, hscan.named.replaceAll_eq,
    hscan.bearer.replaceAll_eq]
  rfl

theorem redact_eq_self (h : AllMasked true t) : redact t = t := by
  rw [h.redact_eq, h.assignment.replaceAll_eq]

theorem redact_redact (h : AllMasked tight t) : redact (redact t) = redact t := by
  rw [h.redact_eq]
  exact h.scan_assignment.redact_eq_self

theorem redact_eq_self_iff (h : AllMasked tight t) : redact t = t ↔ MasksEnd t := by
  have hwritten (name : Text) : assignmentShape.written name = name ++ '=' :: mask :=
    List.append_assoc ..
  rw [h.redact_eq, h.assignment.replaceAll_eq_iff (agrees_assignment_self true)]
  constructor
  · rintro htight before name c after rfl hname hword
    have hnamed : name.map foldCase ∈ assignmentShape.names := List.mem_singleton.2 hname
    have hfind : ∃ rest, assignmentShape.find before.getLast?
        (assignmentShape.written name ++ c :: after) = some ⟨assignmentShape.written name, rest⟩ :=
      Shape.exists_find_written (fun _ => hword) hnamed rfl rfl (c :: after)
    obtain ⟨rest, hfound⟩ := hfind
    rw [← hwritten] at htight
    rw [← Option.or_none (o := before.getLast?)] at hfound
    obtain ⟨rest', heq, hfront⟩ := Shape.masked_iff.1 htight before _ rfl _ hfound
    rw [← List.append_cancel_left heq] at hfront
    exact hfront rfl c rfl
  · intro hends
    rw [Shape.masked_iff]
    rintro x y rfl found hfound
    obtain ⟨rest, rfl, -⟩ := Shape.masked_iff.1 h.assignment x _ rfl found hfound
    obtain ⟨hword, name, after, value, rest', hreads, -, rfl⟩ := Shape.find_eq_some_iff.1 hfound
    refine ⟨rest, rfl, fun _ c hc => ?_⟩
    obtain ⟨later, rfl⟩ := List.head?_eq_some_iff.1 hc
    rw [Option.or_none] at hword
    refine hends x name c later ?_ (List.mem_singleton.1 hreads.named) (hword rfl)
    rw [← hwritten]

end AllMasked

end Redaction

namespace LogRecord

def messageTexts : LogMessage → List Text
  | .text t => [t]
  | _ => []

def valueTexts : Json → List Text
  | .str t => [t]
  | _ => []

def argumentTexts : LogArguments → List Text
  | .none => []
  | .positional values => values.flatMap valueTexts
  | .named fields => fields.flatMap fun field => valueTexts field.2

/-- The texts of a record: its message, its arguments and its trace. -/
def texts (record : LogRecord) : List Text :=
  messageTexts record.message ++ (argumentTexts record.arguments ++ record.trace.toList)

theorem redact_nil : Redaction.redact [] = [] := by
  rw [Redaction.redact_eq_scanFor]
  simp [Redaction.scanFor]

theorem redactArgument_eq_self_iff (value : Json) :
    redactArgument value = value ↔ ∀ t ∈ valueTexts value, Redaction.redact t = t := by
  cases value <;> simp [redactArgument, valueTexts]

theorem map_eq_self_iff {α : Type} {f : α → α} {texts : α → List Text}
    (h : ∀ a, f a = a ↔ ∀ t ∈ texts a, Redaction.redact t = t) (l : List α) :
    l.map f = l ↔ ∀ t ∈ l.flatMap texts, Redaction.redact t = t := by
  induction l with
  | nil => simp
  | cons a l ih =>
    rw [List.map_cons, List.cons.injEq, List.flatMap_cons, List.forall_mem_append, h, ih]

theorem redact_eq_self_iff {record : LogRecord} (hint : ∀ i, record.message = .int i → i = 0) :
    record.redact = record ↔ ∀ t ∈ record.texts, Redaction.redact t = t := by
  obtain ⟨message, arguments, trace⟩ := record
  simp only [redact, mk.injEq, texts, List.forall_mem_append]
  refine and_congr ?_ (and_congr ?_ ?_)
  · cases message with
    | none => simp [hasMessage, messageTexts]
    | int i =>
      obtain rfl := hint i rfl
      simp [hasMessage, messageTexts]
    | text t =>
      cases t with
      | nil => simp [hasMessage, messageTexts, redact_nil]
      | cons c t => simp [hasMessage, messageTexts, messageText]
  · cases arguments with
    | none => simp [argumentTexts]
    | positional values =>
      rw [LogArguments.positional.injEq]
      exact map_eq_self_iff redactArgument_eq_self_iff values
    | named fields =>
      rw [LogArguments.named.injEq]
      refine map_eq_self_iff (fun field => ?_) fields
      rw [← redactArgument_eq_self_iff, Prod.ext_iff]
      exact and_iff_right rfl
  · cases trace with
    | none => simp
    | some t =>
      cases t with
      | nil => simp [redact_nil]
      | cons c t => simp

theorem message_redact (record : LogRecord) (i : Int) (h : record.redact.message = .int i) :
    i = 0 := by
  simp only [redact] at h
  split at h
  · cases h
  · next hmessage =>
    rw [h] at hmessage
    by_contra hi
    exact hmessage (by simp [hasMessage, hi])

theorem valueTexts_redactArgument (value : Json) :
    ∀ t ∈ valueTexts (redactArgument value), ∃ u, t = Redaction.redact u := by
  cases value with
  | str t => exact List.forall_mem_singleton.2 ⟨t, rfl⟩
  | _ => exact List.forall_mem_nil _

/-- The texts of a redacted record are what one redaction leaves. -/
theorem texts_redact (record : LogRecord) :
    ∀ t ∈ record.redact.texts, ∃ u, t = Redaction.redact u := by
  simp only [redact, texts, List.forall_mem_append]
  refine ⟨?_, ?_, ?_⟩
  · split
    · exact List.forall_mem_singleton.2 ⟨_, rfl⟩
    · next hmessage =>
      intro t ht
      have hnil : t = [] := by
        revert hmessage ht
        cases record.message with
        | none => simp [messageTexts]
        | int i => simp [messageTexts]
        | text u => cases u <;> simp [messageTexts, hasMessage]
      exact ⟨[], by rw [hnil, redact_nil]⟩
  · cases record.arguments with
    | none => exact List.forall_mem_nil _
    | positional values =>
      simp only [argumentTexts, List.forall_mem_flatMap, List.forall_mem_map]
      exact fun value _ => valueTexts_redactArgument value
    | named fields =>
      simp only [argumentTexts, List.forall_mem_flatMap, List.forall_mem_map]
      exact fun field _ => valueTexts_redactArgument field.2
  · cases record.trace with
    | none => exact List.forall_mem_nil _
    | some t =>
      cases t with
      | nil => exact List.forall_mem_singleton.2 ⟨[], redact_nil.symm⟩
      | cons c t => exact List.forall_mem_singleton.2 ⟨c :: t, rfl⟩

end LogRecord

namespace Redaction

/-- A redacted text, or a redacted record, stays as it is exactly if no value goes on after the mask
of an assigned `API_KEY`. Redacting a third time changes nothing. -/
theorem redact_redact_eq_iff (t : Text) (record : LogRecord) :
    (redact (redact t) = redact t ↔ MasksEnd (redact t)) ∧
    redact (redact (redact t)) = redact (redact t) ∧
    (record.redact.redact = record.redact ↔ ∀ u ∈ record.redact.texts, MasksEnd u) := by
  have htext := allMasked_redact t
  refine ⟨htext.redact_eq_self_iff, htext.redact_redact, ?_⟩
  rw [LogRecord.redact_eq_self_iff record.message_redact]
  refine forall₂_congr fun u hu => ?_
  obtain ⟨v, rfl⟩ := record.texts_redact u hu
  exact (allMasked_redact v).redact_eq_self_iff

/-- The quotation mark after a key is taken for more of its mask, and the lines of the two handlers
differ. -/
theorem redact_redact_quoted :
    let t := "api_key: \"abcdefghij0123456789\"".toList
    let record : LogRecord := { message := .text t }
    redact t = "api_key=***REDACTED***\"".toList ∧ redact (redact t) ≠ redact t ∧
    record.redact.redact.formatted ≠ record.redact.formatted := by
  decide +kernel

end Redaction

end CueCheck
