import CueCheck.Proofs.RepeatedFixes
import Mathlib.Data.List.Forall2

/-!
What fixes leave alone: whatever fixes are requested, an entry keeps its place, its index, its start
and its block, a malformed block keeps everything, and no text is lost without confirmation.
-/

namespace CueCheck

/-- A request for the fix that a word names. -/
structure FixRequest where
  rules : Rules
  word : Text
  confirmed : Bool
deriving DecidableEq, Repr

/-- The second entry is what fixes may have made of the first: a malformed block is the same. -/
structure Entry.Continues (e e' : Entry) : Prop where
  index_eq : e'.index = e.index
  start_eq : e'.start = e.start
  raw_eq : e'.raw = e.raw
  malformed_eq : e'.malformed = e.malformed
  eq_of_malformed : e.malformed = true → e' = e

/-- The second entry is what a request may make of the first. -/
structure FixRequest.MayGive (r : FixRequest) (e e' : Entry) : Prop extends e.Continues e' where
  retimes : e'.stop ≠ e.stop → r.word = Fix.resolveTiming.name.toList
  strips : e'.text ≠ e.text →
    r.confirmed = true ∧ ∃ fix : Fix, fix.destructive = true ∧ r.word = fix.name.toList

namespace Entry

/-- What fixes may change of an entry. -/
def content (e : Entry) : Int × Text := (e.stop, e.text)

theorem content_ne_iff {e e' : Entry} :
    e.content ≠ e'.content ↔ e.stop ≠ e'.stop ∨ e.text ≠ e'.text := by
  rw [content, content, Ne, Prod.mk.injEq, not_and_or]

theorem Continues.refl (e : Entry) : e.Continues e :=
  ⟨rfl, rfl, rfl, rfl, fun _ => rfl⟩

theorem Continues.trans {e₁ e₂ e₃ : Entry} (h : e₁.Continues e₂) (h' : e₂.Continues e₃) :
    e₁.Continues e₃ where
  index_eq := h'.index_eq.trans h.index_eq
  start_eq := h'.start_eq.trans h.start_eq
  raw_eq := h'.raw_eq.trans h.raw_eq
  malformed_eq := h'.malformed_eq.trans h.malformed_eq
  eq_of_malformed hm := by
    have he := h.eq_of_malformed hm
    subst he
    exact h'.eq_of_malformed hm

end Entry

theorem FixRequest.MayGive.refl (r : FixRequest) (e : Entry) : r.MayGive e e :=
  { Entry.Continues.refl e with
    retimes := fun h => absurd rfl h
    strips := fun h => absurd rfl h }

section Pairs

variable {R S : Entry → Entry → Prop}

theorem forall₂_of_getElem? {es es' : List Entry} (hlen : es.length = es'.length)
    (h : ∀ (i : Nat) (e e' : Entry), es[i]? = some e → es'[i]? = some e' → R e e') :
    List.Forall₂ R es es' := by
  rw [List.forall₂_iff_get]
  refine ⟨hlen, fun i hi hi' => h i _ _ ?_ ?_⟩
  · exact List.getElem?_eq_getElem hi
  · exact List.getElem?_eq_getElem hi'

theorem forall₂_trans (hR : ∀ e₁ e₂ e₃, R e₁ e₂ → R e₂ e₃ → R e₁ e₃) {es₁ es₂ es₃ : List Entry}
    (h : List.Forall₂ R es₁ es₂) (h' : List.Forall₂ R es₂ es₃) : List.Forall₂ R es₁ es₃ := by
  induction h generalizing es₃ with
  | nil => exact h'
  | cons hr _ ih =>
    cases h' with
    | cons hr' h' => exact .cons (hR _ _ _ hr hr') (ih h')

end Pairs

namespace Fix

variable {rules : Rules} {d : Document} {fix : Fix}

theorem eq_resolveTiming_of_newStop_ne {e : Entry} {next? : Option Entry}
    (h : fix.newStop rules e next? ≠ e.stop) : fix = resolveTiming := by
  cases fix with
  | resolveTiming => rfl
  | stripAnnotations => exact absurd rfl h
  | stripMarkup => exact absurd rfl h

theorem destructive_of_newText_ne {t : Text} (h : fix.newText t ≠ t) : fix.destructive = true := by
  cases fix with
  | resolveTiming => exact absurd rfl h
  | stripAnnotations => rfl
  | stripMarkup => rfl

theorem continues_outcome {i : Nat} {e e' : Entry} (he : d.entries[i]? = some e)
    (he' : (fix.outcome rules d).1.entries[i]? = some e') :
    e.Continues e' ∧ (e'.stop ≠ e.stop → fix = resolveTiming) ∧
      (e'.text ≠ e.text → fix.destructive = true) := by
  cases hm : e.malformed with
  | true =>
    rw [getElem?_outcome_of_malformed he hm, Option.some.injEq] at he'
    subst he'
    exact ⟨.refl e, fun h => absurd rfl h, fun h => absurd rfl h⟩
  | false =>
    obtain ⟨e₀, issues, he₀, rfl⟩ := exists_of_getElem?_outcome he'
    rw [he, Option.some.injEq] at he₀
    subst he₀
    rw [Entry.fixed_of_subtitle hm]
    refine ⟨⟨rfl, rfl, rfl, rfl, fun hm' => ?_⟩, eq_resolveTiming_of_newStop_ne,
      destructive_of_newText_ne⟩
    exact absurd (hm.symm.trans hm') (by decide)

theorem length_outcome (rules : Rules) (d : Document) (fix : Fix) :
    d.entries.length = (fix.outcome rules d).1.entries.length := by
  have h := congrArg List.length (map_slot_outcome rules d fix)
  rw [List.length_map, List.length_map] at h
  exact h.symm

/-- A word is permitted only as the name of a fix, and only with confirmation if that removes
text. -/
theorem eq_name_of_permitted {word : Text} {confirmed : Bool}
    (h : permitted word confirmed = .ok fix) :
    word = fix.name.toList ∧ (fix.destructive = true → confirmed = true) := by
  rw [permitted] at h
  obtain ⟨named, hnamed, h⟩ := exists_of_bind_eq_ok h
  split at h
  · cases h
  · next hconfirmed =>
    injection h with h
    subst h
    refine ⟨?_, fun hd => by simpa [hd] using hconfirmed⟩
    rw [ofName, ofName?] at hnamed
    split at hnamed
    · next found hfound =>
      injection hnamed with hnamed
      subst hnamed
      have hname : (found.name.toList == word) = true := by
        have hmatch := List.find?_some hfound
        exact hmatch
      exact (eq_of_beq hname).symm
    · cases hnamed

theorem fixed_ne_iff {e : Entry} {next? : Option Entry} :
    e ≠ e.fixed rules fix next? ↔ e.content ≠ (e.fixed rules fix next?).content := by
  cases hm : e.malformed with
  | true => simp [Entry.fixed_of_malformed hm]
  | false =>
    rw [Ne, eq_comm, Entry.fixed_eq_self_iff, Entry.fixed_of_subtitle hm]
    simp [Entry.content, hm, eq_comm]

/-- A fix reports as many entries as it leaves with another end or another text. -/
theorem run_snd_eq_outcome (rules : Rules) (d : Document) (fix : Fix) :
    (fix.run rules d).2 = (d.entries.zip (fix.outcome rules d).1.entries).countP
      fun p => p.1.stop ≠ p.2.stop ∨ p.1.text ≠ p.2.text := by
  have hchecked : (fix.outcome rules d).1.entries.map Entry.content =
      (fix.run rules d).1.entries.map Entry.content := by
    have hbare := congrArg (List.map Entry.content)
      (map_bare_checkEntries rules (fix.run rules d).1.entries)
    rw [List.map_map, List.map_map] at hbare
    exact hbare
  have hcount (es es' : List Entry) :
      ((es.zip es').countP fun p => p.1.stop ≠ p.2.stop ∨ p.1.text ≠ p.2.text) =
        ((es.map Entry.content).zip (es'.map Entry.content)).countP fun p => p.1 ≠ p.2 := by
    rw [List.zip_map, List.countP_map]
    refine List.countP_congr fun p _ => ?_
    rw [decide_eq_true_eq, ← Entry.content_ne_iff]
    simp
  rw [hcount, hchecked, ← hcount, run_snd]
  refine List.countP_congr fun p hp => ?_
  obtain ⟨i, hi⟩ := List.getElem?_of_mem hp
  obtain ⟨he, he'⟩ := List.getElem?_zip_eq_some.1 hi
  rw [getElem?_run, he, Option.map_some, Option.some.injEq] at he'
  rw [← he', decide_eq_true_eq, decide_eq_true_eq, fixed_ne_iff, Entry.content_ne_iff]

end Fix

namespace Document

/-- The document after requests for fixes, of which some may be refused or fail. -/
def afterRequests (d : Document) (requests : List FixRequest) : Document :=
  requests.foldl (fun d r => (d.applyFix r.rules r.word r.confirmed).1) d

variable {d : Document}

/-- What one request does, whether it is refused, fails or succeeds. -/
theorem mayGive_applyFix (r : FixRequest) (d : Document) :
    List.Forall₂ r.MayGive d.entries (d.applyFix r.rules r.word r.confirmed).1.entries ∧
      (d.applyFix r.rules r.word r.confirmed).1.filename = d.filename := by
  rw [applyFix]
  cases hpermitted : Fix.permitted r.word r.confirmed with
  | error failure => exact ⟨List.forall₂_same.2 fun e _ => .refl r e, rfl⟩
  | ok fix =>
    obtain ⟨hword, hconfirmed⟩ := Fix.eq_name_of_permitted hpermitted
    refine ⟨forall₂_of_getElem? (Fix.length_outcome r.rules d fix) fun i e e' he he' => ?_, rfl⟩
    obtain ⟨hcontinues, hstop, htext⟩ := Fix.continues_outcome he he'
    refine { hcontinues with retimes := fun hne => ?_, strips := fun hne => ?_ }
    · rw [hword, hstop hne]
    · exact ⟨hconfirmed (htext hne), fix, htext hne, hword⟩

theorem changed_applyFix {r : FixRequest} {d' : Document} {report : FixReport}
    (h : d.applyFix r.rules r.word r.confirmed = (d', .ok report)) :
    report.changed = (d.entries.zip d'.entries).countP
      fun p => p.1.stop ≠ p.2.stop ∨ p.1.text ≠ p.2.text := by
  cases hpermitted : Fix.permitted r.word r.confirmed with
  | error failure =>
    rw [applyFix, hpermitted] at h
    cases h
  | ok fix =>
    rw [(Fix.eq_name_of_permitted hpermitted).1] at h
    obtain ⟨rfl, -, -, hchanged⟩ := applyFix_eq_ok h
    rw [hchanged, Fix.run_snd_eq_outcome]

theorem continues_afterRequests (d : Document) (requests : List FixRequest) :
    List.Forall₂ Entry.Continues d.entries (d.afterRequests requests).entries ∧
      (d.afterRequests requests).filename = d.filename := by
  induction requests generalizing d with
  | nil => exact ⟨List.forall₂_same.2 fun e _ => .refl e, rfl⟩
  | cons r requests ih =>
    obtain ⟨hstep, hname⟩ := mayGive_applyFix r d
    obtain ⟨hrun, hnames⟩ := ih (d.applyFix r.rules r.word r.confirmed).1
    have hcontinues := hstep.imp fun _ _ h => h.toContinues
    exact ⟨forall₂_trans (fun _ _ _ => .trans) hcontinues hrun, hnames.trans hname⟩

theorem text_afterRequests (d : Document) {requests : List FixRequest}
    (h : ∀ r ∈ requests, r.confirmed = false) :
    List.Forall₂ (fun e e' => e'.text = e.text) d.entries (d.afterRequests requests).entries := by
  induction requests generalizing d with
  | nil => exact List.forall₂_same.2 fun _ _ => rfl
  | cons r requests ih =>
    have hr := h r List.mem_cons_self
    have hstep := (mayGive_applyFix r d).1.imp fun e e' (he : r.MayGive e e') => by
      by_contra hne
      exact absurd (hr.symm.trans (he.strips hne).1) (by decide)
    have hrun := ih (d.applyFix r.rules r.word r.confirmed).1
      fun r hmem => h r (List.mem_cons_of_mem _ hmem)
    exact forall₂_trans (fun _ _ _ h h' => h'.trans h) hstep hrun

end Document

namespace Service

variable {settings : Settings} {s : Submission}

/-- The submission asks for the removal of text without confirming it. -/
def Submission.Unconfirmed (s : Submission) : Prop :=
  s.confirmed = false ∧ ∃ fix ∈ s.fixes, fix.destructive = true

theorem unconfirmed?_eq_none_iff : unconfirmed? s = none ↔ ¬ s.Unconfirmed := by
  rw [unconfirmed?, Submission.Unconfirmed]
  cases s.confirmed with
  | true => simp
  | false => simp

/-- A refusal names the first fix that removes text, and does not depend on the subtitles. -/
theorem Submission.Unconfirmed.refused (h : s.Unconfirmed) (settings : Settings) :
    ∃ fix ∈ s.fixes, fix.destructive = true ∧ ∀ content,
      Service.fix settings { s with content } =
        .ok (Service.refused 409 (.confirmationRequired fix.name)) ∧
      download settings { s with content } =
        .ok (Service.refused 409 (.confirmationRequired fix.name)) := by
  obtain ⟨hs, first, hmem, hfirst⟩ := h
  cases hfind : s.fixes.find? Fix.destructive with
  | none => exact absurd hfirst (List.find?_eq_none.1 hfind first hmem)
  | some fix =>
    refine ⟨fix, List.mem_of_find?_eq_some hfind, List.find?_some hfind, fun content => ?_⟩
    have hrefusal : unconfirmed? { s with content } =
        some (Service.refused 409 (.confirmationRequired fix.name)) := by
      rw [unconfirmed?, hs, hfind]
      rfl
    constructor
    · rw [Service.fix, hrefusal]
    · rw [download, hrefusal]

theorem status_fix {r : Response} (hs : ¬ s.Unconfirmed) (h : Service.fix settings s = .ok r) :
    r.status = 200 := by
  rw [Service.fix, unconfirmed?_eq_none_iff.2 hs] at h
  obtain ⟨⟨session, changes⟩, -, h⟩ := exists_of_bind_eq_ok h
  obtain ⟨loaded, -, h⟩ := exists_of_bind_eq_ok h
  obtain ⟨json, -, h⟩ := exists_of_bind_eq_ok h
  injection h with h
  rw [← h]
  rfl

theorem status_fileResponse {session : Session} {encoding : Option Text} {r : Response}
    (h : fileResponse settings session encoding = .ok r) : r.status = 200 := by
  rw [fileResponse] at h
  obtain ⟨name, -, h⟩ := exists_of_bind_eq_ok h
  obtain ⟨⟨filename, data⟩, -, h⟩ := exists_of_bind_eq_ok h
  injection h with h
  rw [← h]

theorem status_download {r : Response} (hs : ¬ s.Unconfirmed)
    (h : download settings s = .ok r) : r.status = 200 ∨ r.status = 400 := by
  rw [download, unconfirmed?_eq_none_iff.2 hs] at h
  obtain ⟨⟨session, changes⟩, -, h⟩ := exists_of_bind_eq_ok h
  simp only at h
  cases hfile : fileResponse settings session s.encoding with
  | ok response =>
    rw [hfile] at h
    injection h with h
    exact .inl (h ▸ status_fileResponse hfile)
  | error failure =>
    rw [hfile, answerClientFailure] at h
    split at h
    · injection h with h
      rw [← h]
      exact .inr rfl
    · cases h

/-- The answer is a response that reports a conflict. -/
def IsConflict (answer : Except Failure Response) : Prop := ∃ r, answer = .ok r ∧ r.status = 409

theorem isConflict_checked_iff {α : Type} {read : Checked α}
    {answer : α → Except Failure Response} :
    IsConflict (checked read answer) ↔ ∃ value, read = .ok value ∧ IsConflict (answer value) := by
  cases read with
  | ok value => simp [checked]
  | error problems =>
    constructor
    · rintro ⟨r, hr, hstatus⟩
      injection hr with hr
      rw [← hr] at hstatus
      cases hstatus
    · rintro ⟨value, hvalue, -⟩
      cases hvalue

theorem isConflict_fix_iff : IsConflict (Service.fix settings s) ↔ s.Unconfirmed := by
  constructor
  · rintro ⟨r, hr, hstatus⟩
    by_contra hs
    have hok := status_fix hs hr
    omega
  · intro hs
    obtain ⟨fix, -, -, hrefused⟩ := hs.refused settings
    exact ⟨_, (hrefused s.content).1, rfl⟩

theorem isConflict_download_iff : IsConflict (download settings s) ↔ s.Unconfirmed := by
  constructor
  · rintro ⟨r, hr, hstatus⟩
    by_contra hs
    have hok := status_download hs hr
    omega
  · intro hs
    obtain ⟨fix, -, -, hrefused⟩ := hs.refused settings
    exact ⟨_, (hrefused s.content).2, rfl⟩

end Service

namespace Document

/-- Wherever requests for fixes have brought a document, its entries continue those it had, in their
order, and without confirmation with their texts. The next request changes no more than it may, and
reports as many entries as it changes. The service refuses to remove text without confirmation, and
does so before it has looked at what was sent. -/
theorem continues_of_requests :
    (∀ (d : Document) (requests : List FixRequest),
      let before := d.afterRequests requests
      before.filename = d.filename ∧
        List.Forall₂ Entry.Continues d.entries before.entries ∧
        ((∀ r ∈ requests, r.confirmed = false) →
          List.Forall₂ (fun e e' => e'.text = e.text) d.entries before.entries) ∧
        ∀ (r : FixRequest) (after : Document) (answer : Except Failure FixReport),
          before.applyFix r.rules r.word r.confirmed = (after, answer) →
            List.Forall₂ r.MayGive before.entries after.entries ∧
            ∀ report, answer = .ok report →
              report.changed = (before.entries.zip after.entries).countP
                fun p => p.1.stop ≠ p.2.stop ∨ p.1.text ≠ p.2.text) ∧
    ∀ (settings : Settings) (body : Service.Body),
      (Service.IsConflict (Service.Endpoint.fix.respond settings body) ↔
        ∃ s, Service.readFixing body = .ok s ∧ s.Unconfirmed) ∧
      (Service.IsConflict (Service.Endpoint.download.respond settings body) ↔
        ∃ s, Service.readDownload body = .ok s ∧ s.Unconfirmed) ∧
      ∀ s : Service.Submission, s.Unconfirmed →
        ∃ fix ∈ s.fixes, fix.destructive = true ∧ ∀ content,
          Service.fix settings { s with content } =
            .ok (Service.refused 409 (.confirmationRequired fix.name)) ∧
          Service.download settings { s with content } =
            .ok (Service.refused 409 (.confirmationRequired fix.name)) := by
  constructor
  · intro d requests before
    obtain ⟨hentries, hname⟩ := continues_afterRequests d requests
    refine ⟨hname, hentries, text_afterRequests d, fun r after answer happly => ?_⟩
    have hstep := (mayGive_applyFix r before).1
    rw [happly] at hstep
    refine ⟨hstep, fun report hreport => ?_⟩
    rw [hreport] at happly
    exact changed_applyFix happly
  · intro settings body
    refine ⟨?_, ?_, fun s hs => hs.refused settings⟩
    · rw [Service.Endpoint.respond, Service.isConflict_checked_iff]
      simp only [Service.isConflict_fix_iff]
    · rw [Service.Endpoint.respond, Service.isConflict_checked_iff]
      simp only [Service.isConflict_download_iff]

/-- A request that names no fix, one without the confirmation that it needs, and one that changes
times; after them a confirmed one, or one whose times are too long for the analysis. -/
theorem continues_of_requests_refused :
    let d : Document := { entries := [
      { index := 1, start := 1000, stop := 5000, text := "[door]\n<i>Who</i>".toList },
      .ofMalformed 2 "(lost)".toList "Block has too few lines",
      { index := 3, start := 4000, stop := 4100, text := "(no)".toList }] }
    let requests : List FixRequest := [
      ⟨{}, "shout".toList, false⟩, ⟨{}, "strip_markup".toList, false⟩,
      ⟨{}, "resolve_common".toList, false⟩]
    let before := d.afterRequests requests
    let strip : FixRequest := ⟨{}, "strip_annotations".toList, true⟩
    let endless : FixRequest := ⟨{ minDuration := 10 ^ 400 }, "resolve_common".toList, false⟩
    (∀ r ∈ requests, r.confirmed = false) ∧
      before.entries.map (·.stop) = [5000, 0, 5000] ∧
      List.Forall₂ (fun e e' => e'.text = e.text) d.entries before.entries ∧
      (∃ after counts,
        before.applyFix strip.rules strip.word strip.confirmed =
          (after, .ok ⟨.stripAnnotations, 2, counts⟩) ∧
          after.entries.map (·.text) = ["<i>Who</i>".toList, [], []] ∧
          List.Forall₂ strip.MayGive before.entries after.entries) ∧
      (∃ after,
        before.applyFix endless.rules endless.word endless.confirmed =
          (after, .error .durationTooLarge) ∧
          after.entries.map (·.stop) = [1000 + 10 ^ 400, 0, 4000 + 10 ^ 400] ∧
          List.Forall₂ endless.MayGive before.entries after.entries) ∧
      let body : Service.Body := .json <| .obj [
        ("srt_content", .ofString "-->"), ("encoding", .ofString "none"),
        ("operations", .arr [.ofString "resolve_common", .ofString "strip_markup"])]
      Service.IsConflict (Service.Endpoint.download.respond {} body) := by
  intro d requests before strip endless
  have hunconfirmed : ∀ r ∈ requests, r.confirmed = false := by decide
  obtain ⟨-, -, htexts, hrequest⟩ := continues_of_requests.1 d requests
  have hnext (r : FixRequest) {answer : Except Failure FixReport}
      (h : (before.applyFix r.rules r.word r.confirmed).2 = answer) :
      before.applyFix r.rules r.word r.confirmed =
          ((before.applyFix r.rules r.word r.confirmed).1, answer) ∧
        List.Forall₂ r.MayGive before.entries
          (before.applyFix r.rules r.word r.confirmed).1.entries := by
    have happly : before.applyFix r.rules r.word r.confirmed =
        ((before.applyFix r.rules r.word r.confirmed).1, answer) := by rw [← h]
    exact ⟨happly, (hrequest r _ _ happly).1⟩
  have hstrip : (before.applyFix strip.rules strip.word strip.confirmed).2 =
      .ok ⟨.stripAnnotations, 2, { syntactic := 1, formatting := 1 }⟩ := by decide +kernel
  have hendless : (before.applyFix endless.rules endless.word endless.confirmed).2 =
      .error .durationTooLarge := by decide +kernel
  obtain ⟨hstripped, hstripEffect⟩ := hnext strip hstrip
  obtain ⟨hended, hendedEffect⟩ := hnext endless hendless
  refine ⟨hunconfirmed, by decide +kernel, htexts hunconfirmed,
    ⟨_, _, hstripped, by decide +kernel, hstripEffect⟩,
    ⟨_, hended, by decide +kernel, hendedEffect⟩, ?_⟩
  exact (continues_of_requests.2 {} _).2.1.2 ⟨_, rfl, rfl, .stripMarkup, by decide, rfl⟩

end Document

end CueCheck
