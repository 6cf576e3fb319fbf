import CueCheck.Service.Gate

/-!
The questions that browsers ask before they send a request from another origin. Such a question
carries no key, and the key is checked before the rules on other origins are looked at, so at a
protected address it is refused where a key is required.
-/

namespace CueCheck

theorem Settings.ne_nil_of_requiredKey {settings : Settings} {key : Text}
    (h : settings.requiredKey = some key) : key ≠ [] := by
  rintro rfl
  have hempty := (Option.filter_eq_some_iff.1 h).2
  cases hempty

namespace Service

variable {settings : Settings} {next : Responder} {request : Request} {origin method : Text}

/-- The question of a browser whether it may send a request with a method from an origin. -/
structure IsPreflight (request : Request) (origin method : Text) : Prop where
  options : request.method = "OPTIONS".toList
  origin : request.header? "origin" = some origin
  method : request.header? "access-control-request-method" = some method

/-- There are rules on other origins, and they allow the origin, the method and the headers that a
browser asks about. -/
structure Allows (settings : Settings) (request : Request) (origin method : Text) : Prop where
  enabled : settings.corsEnabled = true
  origin : allowsOrigin settings origin = true
  method : allowsMethod settings method = true
  headers : ∀ names ∈ request.header? "access-control-request-headers",
    allowsHeaders settings names = true

/-- The answer to a browser that it may send its request. -/
def granted (settings : Settings) (origin : Text) : Response :=
  { Response.plain 200 "OK".toList with allowedOrigin := allowedOrigin settings origin }

/-- The answer to a request that should carry a key and carries none. -/
def missingKey : Response :=
  .detail 401 <| .ofString "Missing X-API-Key header. Please provide API key for authentication."

/-- The check of keys lets a request through: its address is public, or it carries the key, if one
is required. -/
def Admitted (settings : Settings) (request : Request) : Prop :=
  isPublic request.path = true ∨
    ∀ key ∈ settings.requiredKey, request.header? "x-api-key" = some key

/-- The check of hosts lets a request through. -/
def HostAdmitted (settings : Settings) (request : Request) : Prop :=
  settings.environment ≠ "production".toList ∨ settings.allowedHosts = [] ∨
    ['*'] ∈ settings.allowedHosts ∨
    allowsHost settings.allowedHosts
      (((request.header? "host").getD []).takeWhile (· != ':')) = true

instance (settings : Settings) (request : Request) : Decidable (Admitted settings request) :=
  inferInstanceAs (Decidable (_ ∨ _))

instance (settings : Settings) (request : Request) : Decidable (HostAdmitted settings request) :=
  inferInstanceAs (Decidable (_ ∨ _))

theorem authenticate_of_admitted (h : Admitted settings request) :
    authenticate settings next request = next request := by
  rw [authenticate]
  split
  · rfl
  · next hprotected =>
    have hkey := h.resolve_left hprotected
    cases hrequired : settings.requiredKey with
    | none => rfl
    | some key =>
      rw [hkey key hrequired]
      cases key with
      | nil => exact absurd rfl (Settings.ne_nil_of_requiredKey hrequired)
      | cons c key => exact if_pos rfl

theorem authenticate_of_not_admitted (h : ¬ Admitted settings request) :
    ∃ wording, authenticate settings next request = .ok (.detail 401 (.ofString wording)) := by
  rw [Admitted, not_or] at h
  obtain ⟨hprotected, hkey⟩ := h
  rw [authenticate, if_neg hprotected]
  cases hrequired : settings.requiredKey with
  | none => exact absurd (fun key hmem => by rw [hrequired] at hmem; cases hmem) hkey
  | some key =>
    cases hgiven : request.header? "x-api-key" with
    | none => exact ⟨_, rfl⟩
    | some given =>
      cases given with
      | nil => exact ⟨_, rfl⟩
      | cons c given =>
        have hne : c :: given ≠ key := by
          rintro rfl
          refine hkey fun other hmem => ?_
          rw [hrequired] at hmem
          rw [hgiven, hmem]
        exact ⟨_, if_neg hne⟩

theorem checkHost_of_hostAdmitted (h : HostAdmitted settings request) :
    checkHost settings next request = next request := by
  simp only [checkHost, Bool.or_eq_true, bne_iff_ne, List.isEmpty_iff, List.contains_iff_mem]
  split
  · rfl
  · next hchecked =>
    rw [HostAdmitted, ← or_assoc, ← or_assoc] at h
    exact if_pos (h.resolve_left hchecked)

theorem checkHost_of_not_hostAdmitted (h : ¬ HostAdmitted settings request) :
    ∃ r, checkHost settings next request = .ok r ∧ r.status ≠ 200 := by
  rw [HostAdmitted, ← or_assoc, ← or_assoc, not_or] at h
  obtain ⟨hchecked, hhost⟩ := h
  simp only [checkHost, Bool.or_eq_true, bne_iff_ne, List.isEmpty_iff, List.contains_iff_mem]
  rw [if_neg hchecked, if_neg hhost]
  split
  · exact ⟨_, rfl, by decide⟩
  · exact ⟨_, rfl, by decide⟩

theorem compress_of_ok {r : Response} (h : next request = .ok r)
    (hsize : r.content.size < minCompressedSize) : compress next request = .ok r := by
  rw [compress]
  split
  · exact h
  · rw [h, Except.map, if_pos hsize]

theorem preflight_of_allows (h : Allows settings request origin method) :
    preflight settings request origin method = granted settings origin := by
  have hheaders : (request.header? "access-control-request-headers").all
      (allowsHeaders settings) = true := by
    rw [Option.all_eq_true]
    exact h.headers
  rw [preflight]
  simp only [h.origin, h.method, hheaders]
  rfl

theorem shareAcrossOrigins_of_preflight (hp : IsPreflight request origin method)
    (ha : Allows settings request origin method) :
    shareAcrossOrigins settings next request = .ok (granted settings origin) := by
  rw [shareAcrossOrigins, ha.enabled, hp.origin]
  simp only [hp.options, hp.method, beq_self_eq_true, preflight_of_allows ha]

theorem respond_of_missingKey {key : Text} (hkey : settings.requiredKey = some key)
    (hprotected : isPublic request.path = false) (hnone : request.header? "x-api-key" = none) :
    respond settings request = .ok missingKey := by
  rw [respond, authenticate, hprotected, hkey, hnone]
  rfl

theorem respond_of_admitted (hp : IsPreflight request origin method)
    (ha : Allows settings request origin method) (hadmitted : Admitted settings request)
    (hhost : HostAdmitted settings request) :
    respond settings request = .ok (granted settings origin) := by
  have hsmall : (granted settings origin).content.size < minCompressedSize := by
    change (Utf8.encode "OK".toList).length < minCompressedSize
    decide
  rw [respond, authenticate_of_admitted hadmitted, checkHost_of_hostAdmitted hhost]
  exact compress_of_ok (shareAcrossOrigins_of_preflight hp ha) hsmall

/-- What does not pass the checks of keys and of hosts is not answered with success. -/
theorem admitted_of_respond {r : Response} (h : respond settings request = .ok r)
    (hr : r.status = 200) : Admitted settings request ∧ HostAdmitted settings request := by
  -- The check of keys is the outermost layer: what it refuses reaches no other.
  have hadmitted : Admitted settings request := by
    refine Classical.byContradiction fun hnot => ?_
    obtain ⟨wording, hrefused⟩ := authenticate_of_not_admitted hnot
    rw [respond, hrefused] at h
    rw [← Except.ok.inj h] at hr
    cases hr
  refine ⟨hadmitted, Classical.byContradiction fun hnot => ?_⟩
  obtain ⟨refusal, hrefused, hstatus⟩ := checkHost_of_not_hostAdmitted hnot
  rw [respond, authenticate_of_admitted hadmitted, hrefused] at h
  rw [← Except.ok.inj h] at hr
  exact hstatus hr

/-- A question that the rules on other origins allow is granted exactly if it passes the checks of
keys and of hosts. Where a key is required, a question about a protected address that carries none
is refused, whatever the rules allow. -/
theorem respond_preflight_iff (hp : IsPreflight request origin method)
    (ha : Allows settings request origin method) :
    (respond settings request = .ok (granted settings origin) ↔
      Admitted settings request ∧ HostAdmitted settings request) ∧
    ∀ key, settings.requiredKey = some key → isPublic request.path = false →
      request.header? "x-api-key" = none → respond settings request = .ok missingKey := by
  refine ⟨⟨fun h => admitted_of_respond h rfl, ?_⟩, fun key => respond_of_missingKey⟩
  rintro ⟨hadmitted, hhost⟩
  exact respond_of_admitted hp ha hadmitted hhost

/-- With rules of its own on hosts and origins, the service grants a question that carries the key
and refuses the same question without it. -/
theorem respond_preflight_iff_keyed :
    let settings : Settings :=
      { environment := "production".toList
        allowedHosts := ["*.example.org".toList]
        apiKey := some "s3cret".toList
        corsOrigins := ["https://app.example.org".toList]
        corsAllowMethods := ["GET".toList, "POST".toList]
        corsAllowHeaders := ["X-API-Key".toList] }
    let origin := "https://app.example.org".toList
    let question (key : List (Text × Text)) : Request :=
      { method := "OPTIONS".toList
        path := "/api/v1/subtitles/fix".toList
        headers := [("Host".toList, "api.example.org:8443".toList), ("Origin".toList, origin),
          ("Access-Control-Request-Method".toList, "POST".toList),
          ("Access-Control-Request-Headers".toList, "content-type, x-api-key".toList)] ++ key }
    respond settings (question [("x-api-key".toList, "s3cret".toList)]) =
        .ok (granted settings origin) ∧
      respond settings (question []) = .ok missingKey := by
  intro settings origin question
  have hp : ∀ key, IsPreflight (question key) origin "POST".toList := fun key =>
    ⟨rfl, rfl, rfl⟩
  have ha : ∀ key, Allows settings (question key) origin "POST".toList := by
    refine fun key => ⟨rfl, by decide, by decide, fun names hnames => ?_⟩
    rw [← Option.some.inj hnames]
    decide +kernel
  obtain ⟨hgranted, -⟩ := respond_preflight_iff (hp _) (ha [("x-api-key".toList, "s3cret".toList)])
  obtain ⟨-, hrefused⟩ := respond_preflight_iff (hp _) (ha [])
  exact ⟨hgranted.2 ⟨by decide +kernel, by decide +kernel⟩, hrefused _ rfl (by decide) rfl⟩

/-- A browser asks, as it always does without a key, whether a page may have a file exported. The
rules on other origins allow it, and it is refused. -/
theorem respond_preflight_refused :
    let settings : Settings := { apiKey := some "s3cret".toList }
    let origin := "https://app.example".toList
    let question : Request :=
      { method := "OPTIONS".toList
        path := "/api/v1/subtitles/export".toList
        headers := [("Host".toList, "testserver".toList), ("Origin".toList, origin),
          ("Access-Control-Request-Method".toList, "POST".toList),
          ("Access-Control-Request-Headers".toList, "content-type,x-api-key".toList)] }
    IsPreflight question origin "POST".toList ∧ Allows settings question origin "POST".toList ∧
      HostAdmitted settings question ∧ isPublic question.path = false ∧
      question.header? "x-api-key" = none ∧ respond settings question = .ok missingKey ∧
      respond settings question ≠ .ok (granted settings origin) := by
  intro settings origin question
  have ha : Allows settings question origin "POST".toList :=
    ⟨rfl, by decide, by decide, fun _ _ => rfl⟩
  have hprotected : isPublic question.path = false := by decide
  have hrefused : respond settings question = .ok missingKey :=
    respond_of_missingKey rfl hprotected rfl
  refine ⟨⟨rfl, rfl, rfl⟩, ha, by decide, hprotected, rfl, hrefused, fun h => ?_⟩
  rw [hrefused] at h
  cases congrArg Response.status (Except.ok.inj h)

end Service

end CueCheck
