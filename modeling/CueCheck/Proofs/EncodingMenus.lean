import CueCheck.Proofs.Downloads

/-!
Menus of encodings: which option a name means, and what the service answers to a name that means
none. A name is resolved to the first option with its character set, and an option that was resolved
to stays so when it is resolved again, whatever the names mean.
-/

namespace CueCheck

namespace Charset

variable {name : Text}

theorem ofName?_of_null (h : '\x00' ∈ name) : ofName? name = .error .nullInCharsetName := by
  rw [ofName?, if_pos (List.contains_iff_mem.2 h)]

theorem exists_ofName?_of_not_null (h : '\x00' ∉ name) :
    ∃ charset?, ofName? name = .ok charset? := by
  rw [ofName?, if_neg (mt List.contains_iff_mem.1 h)]
  exact ⟨_, rfl⟩

end Charset

namespace EncodingMenu

section

variable {κ : Type}

/-- An option that means a character set, in a list where no option before it does. -/
def IsFirst (registry : Registry κ) (charset : κ) (option : Text) (options : List Text) : Prop :=
  registry.lookup option = .ok charset ∧ ∃ before after, options = before ++ option :: after ∧
    ∀ other ∈ before, registry.lookup other ≠ .ok charset

/-- All options of a menu mean character sets of a registry. -/
def KnownIn (menu : EncodingMenu) (registry : Registry κ) : Prop :=
  ∀ option ∈ menu.options, ∃ charset, registry.lookup option = .ok charset

/-- All options of a menu mean character sets. -/
def Known (menu : EncodingMenu) : Prop := menu.KnownIn Charset.registry

/-- The failure that a name means nothing on the menu. -/
def missing (menu : EncodingMenu) (name : Text) : Failure :=
  .unsupportedEncoding name menu.options

variable {registry : Registry κ} {menu : EncodingMenu} {options : List Text}
  {option name m : Text} {charset : κ}

theorem IsFirst.mem (h : IsFirst registry charset option options) : option ∈ options := by
  obtain ⟨-, before, after, rfl, -⟩ := h
  simp

variable [DecidableEq κ]

theorem find_eq (hknown : ∀ option ∈ options, ∃ charset, registry.lookup option = .ok charset) :
    find registry charset options =
      .ok (options.find? fun option => registry.lookup option = .ok charset) := by
  induction options with
  | nil => rfl
  | cons option options ih =>
    rw [List.forall_mem_cons] at hknown
    obtain ⟨found, hfound⟩ := hknown.1
    rw [find, hfound, List.find?_cons, hfound]
    by_cases heq : found = charset
    · subst heq
      simp [bind, Except.bind, pure, Except.pure]
    · simp [bind, Except.bind, heq, ih hknown.2]

theorem find_eq_some_iff
    (hknown : ∀ option ∈ options, ∃ charset, registry.lookup option = .ok charset) :
    find registry charset options = .ok (some option) ↔
      IsFirst registry charset option options := by
  rw [find_eq hknown, Except.ok.injEq, List.find?_eq_some_iff_append]
  simp [IsFirst]

theorem resolveIn_of_unknown (hne : name ≠ []) (h : registry.lookup? name = .ok none) :
    menu.resolveIn registry (some name) = .error (menu.missing name) := by
  rw [resolveIn, h]
  · rfl
  · exact hne

theorem resolveIn_of_lookup (hknown : menu.KnownIn registry)
    (h : registry.lookup name = .ok charset) :
    menu.resolveIn registry (some name) =
      match menu.options.find? fun option => registry.lookup option = .ok charset with
      | some option => .ok option
      | none => .error (menu.missing name) := by
  rw [resolveIn, Registry.lookup_eq_ok_iff.1 h]
  · simp only [bind, Except.bind, find_eq hknown]
    cases menu.options.find? fun option => registry.lookup option = .ok charset <;> rfl
  · exact Registry.ne_nil_of_lookup h

theorem resolveIn_eq_ok_iff (hknown : menu.KnownIn registry) (hne : name ≠ []) :
    menu.resolveIn registry (some name) = .ok m ↔
      ∃ charset, registry.lookup name = .ok charset ∧
        IsFirst registry charset m menu.options := by
  constructor
  · intro h
    obtain ⟨charset, hname, -⟩ := exists_charset_of_resolveIn hne h
    refine ⟨charset, hname, (find_eq_some_iff hknown).1 ?_⟩
    rw [resolveIn_of_lookup hknown hname] at h
    rw [find_eq hknown]
    split at h
    · next option hoption =>
      injection h with h
      rw [hoption, h]
    · cases h
  · rintro ⟨charset, hname, hfirst⟩
    have hfind := (find_eq_some_iff hknown).2 hfirst
    rw [find_eq hknown, Except.ok.injEq] at hfind
    rw [resolveIn_of_lookup hknown hname, hfind]

/-- A name that can be looked up is resolved or it is not on the menu. -/
theorem resolveIn_cases (hknown : menu.KnownIn registry) (hne : name ≠ [])
    (hname : ∃ charset?, registry.lookup? name = .ok charset?) :
    (∃ m ∈ menu.options, menu.resolveIn registry (some name) = .ok m) ∨
      menu.resolveIn registry (some name) = .error (menu.missing name) := by
  obtain ⟨charset?, hname⟩ := hname
  cases charset? with
  | none => exact .inr (resolveIn_of_unknown hne hname)
  | some charset =>
    rw [resolveIn_of_lookup hknown (Registry.lookup_eq_ok_iff.2 hname)]
    split
    · next option hoption => exact .inl ⟨option, List.mem_of_find?_eq_some hoption, rfl⟩
    · exact .inr rfl

/-- What a name is resolved to is resolved to itself, and so is all that means the same. -/
theorem resolveIn_of_isFirst (hknown : menu.KnownIn registry)
    (h : IsFirst registry charset m menu.options) (hname : registry.lookup name = .ok charset) :
    menu.resolveIn registry (some name) = .ok m :=
  (resolveIn_eq_ok_iff hknown (Registry.ne_nil_of_lookup hname)).2 ⟨charset, hname, h⟩

/-- Named or not, an encoding is resolved to the first option with its character set, where the
fallback is the first with its own. -/
theorem exists_isFirst_of_resolveIn (hknown : menu.KnownIn registry)
    (hfallback : ∃ charset, IsFirst registry charset menu.fallback menu.options)
    {encoding : Option Text} (h : menu.resolveIn registry encoding = .ok m) :
    ∃ charset, IsFirst registry charset m menu.options ∧
      ∀ name, encoding = some name → name ≠ [] → registry.lookup name = .ok charset := by
  rcases encoding with _ | _ | ⟨c, name⟩
  · obtain ⟨charset, hfirst⟩ := hfallback
    rw [← Except.ok.inj h]
    exact ⟨charset, hfirst, fun name hnone => nomatch hnone⟩
  · obtain ⟨charset, hfirst⟩ := hfallback
    rw [← Except.ok.inj h]
    exact ⟨charset, hfirst, fun name hnil hne => absurd (Option.some.inj hnil).symm hne⟩
  · obtain ⟨charset, hname, hfirst⟩ :=
      (resolveIn_eq_ok_iff hknown (List.cons_ne_nil c name)).1 h
    refine ⟨charset, hfirst, fun other hother _ => ?_⟩
    rw [← Option.some.inj hother, hname]

end

variable {menu : EncodingMenu} {name : Text}

theorem resolve_of_null (h : '\x00' ∈ name) :
    menu.resolve (some name) = .error .nullInCharsetName := by
  have hlookup : Charset.registry.lookup? name = .error .nullInCharsetName :=
    Charset.ofName?_of_null h
  rw [resolve, resolveIn, hlookup]
  · rfl
  · rintro rfl
    cases h

end EncodingMenu

namespace Service

variable {settings : Settings} {name m : Text} {failure : Failure}

/-- Requests that name an encoding, and that nothing else is wrong with up to where the name is
looked at, have a result: a file that is not too large, and a confirmed submission that can be
fixed. -/
structure ResultOf (settings : Settings) (name : Text) (result : Except Failure Response) :
    Prop where
  upload : ∀ u : Upload, u.encoding = some name → ¬ settings.maxFileSize < u.data.length →
    Service.upload settings u = result
  download : ∀ s : Submission, s.encoding = some name → ¬ s.Unconfirmed →
    (∃ done, fixed settings s = .ok done) → Service.download settings s = result

theorem resultOf_of_error (h : settings.menu.resolve (some name) = .error failure) :
    ResultOf settings name (answerClientFailure (.error failure)) where
  upload u hu hsize := by
    have hread : Session.readFile settings.menu (.bytes u.data) u.encoding = .error failure := by
      rw [Session.readFile, hu, h]
      rfl
    rw [Service.upload, if_neg hsize, Session.load, hread]
    rfl
  download s hs hconfirmed hfixed := by
    obtain ⟨done, hfixed⟩ := hfixed
    have hfile : fileResponse settings done.1 s.encoding = .error failure := by
      rw [EncodingMenu.resolve] at h
      rw [fileResponse, fileResponseIn, hs, h]
      rfl
    rw [Service.download, unconfirmed?_eq_none_iff.2 hconfirmed, hfixed]
    exact congrArg answerClientFailure hfile

/-- A name without U+0000 is resolved to an option of the menu or refused as unsupported, and the
service answers 400 to requests that name it. With U+0000 in it a name fails otherwise, and the
requests have no answer. -/
theorem resolve_or_unsupported_iff (hknown : settings.menu.Known)
    (hfallback : settings.defaultEncoding ∈ settings.supportedEncodings) (name : Text) :
    let unsupported := Failure.unsupportedEncoding name settings.supportedEncodings
    ((∃ m ∈ settings.supportedEncodings, settings.menu.resolve (some name) = .ok m) ∨
      settings.menu.resolve (some name) = .error unsupported ↔ '\x00' ∉ name) ∧
    (settings.menu.resolve (some name) = .error unsupported →
      ResultOf settings name (.ok (refused 400 unsupported))) ∧
    ('\x00' ∈ name → settings.menu.resolve (some name) = .error .nullInCharsetName ∧
      ResultOf settings name (.error .nullInCharsetName)) := by
  intro unsupported
  refine ⟨⟨?_, fun hnull => ?_⟩, fun h => resultOf_of_error h, fun hnull => ?_⟩
  · rintro h hnull
    rw [EncodingMenu.resolve_of_null hnull] at h
    rcases h with ⟨m, -, h⟩ | h
    · cases h
    · injection h with h
      exact Failure.noConfusion h
  · by_cases hne : name = []
    · subst hne
      exact .inl ⟨_, hfallback, rfl⟩
    · exact EncodingMenu.resolveIn_cases hknown hne (Charset.exists_ofName?_of_not_null hnull)
  · exact ⟨EncodingMenu.resolve_of_null hnull,
      resultOf_of_error (EncodingMenu.resolve_of_null hnull)⟩

theorem known_repeated : ∀ option ∈ ["l1".toList, "UTF8".toList, "utf-8".toList],
    ∃ charset, Charset.ofName option = .ok charset :=
  List.forall_mem_cons.2 ⟨⟨.latin1, by decide +kernel⟩,
    List.forall_mem_cons.2 ⟨⟨.utf8, by decide +kernel⟩,
      List.forall_mem_singleton.2 ⟨.utf8, by decide +kernel⟩⟩⟩

/-- A menu that names a character set twice, and a name off the menu. -/
theorem resolve_or_unsupported_iff_unknown :
    let settings : Settings :=
      { supportedEncodings := ["l1".toList, "UTF8".toList, "utf-8".toList]
        defaultEncoding := "utf-8".toList }
    let name := "koi8-r".toList
    let unsupported := Failure.unsupportedEncoding name settings.supportedEncodings
    settings.menu.resolve (some name) = .error unsupported ∧
      Service.upload settings ⟨"a.srt".toList, [0x31], some name⟩ =
        .ok (refused 400 unsupported) := by
  intro settings name unsupported
  have hknown : settings.menu.Known := known_repeated
  have hfallback : settings.defaultEncoding ∈ settings.supportedEncodings := by decide +kernel
  have hresolve : settings.menu.resolve (some name) = .error unsupported := by decide +kernel
  obtain ⟨-, hanswer, -⟩ := resolve_or_unsupported_iff hknown hfallback name
  exact ⟨hresolve, (hanswer hresolve).upload _ rfl (by decide)⟩

/-- The name of an encoding with U+0000 after it is not refused as unsupported. -/
theorem resolve_null_ending :
    let settings : Settings := {}
    let name := "utf-8\x00".toList
    settings.menu.resolve (some name) = .error .nullInCharsetName ∧
      settings.menu.resolve (some name) ≠
        .error (.unsupportedEncoding name settings.supportedEncodings) ∧
      Service.upload settings ⟨"a.srt".toList, [0x31], some name⟩ = .error .nullInCharsetName := by
  intro settings name
  have hresolve : settings.menu.resolve (some name) = .error .nullInCharsetName := by
    decide +kernel
  exact ⟨hresolve, by decide +kernel, (resultOf_of_error hresolve).upload _ rfl (by decide)⟩

/-- A document as a file that is written in an encoding and labelled with it. -/
def fileIn (write : Text → Text → Except Failure Bytes) (encoding : Text) (loaded : Loaded) :
    Except Failure Response := do
  let data ← write encoding loaded.document.render
  return {
    status := 200
    contentType := some ("text/plain; charset=".toList ++ encoding)
    content := .bytes data
    disposition := some
      (Download.contentDisposition (Download.fixedName loaded.document.filename)) }

section

variable {κ : Type} [DecidableEq κ] {registry : Registry κ}
  {write : Text → Text → Except Failure Bytes}

theorem fileResponseIn_eq_fileIn {session : Session} {loaded : Loaded} {encoding : Option Text}
    (h : settings.menu.resolveIn registry encoding = .ok m)
    (hm : settings.menu.resolveIn registry (some m) = .ok m)
    (hloaded : session.loaded = some loaded) :
    fileResponseIn registry write settings session encoding = fileIn write m loaded := by
  have hcurrent : session.current = .ok loaded := by rw [Session.current, hloaded]
  rw [fileResponseIn, h, fileIn]
  simp only [bind, Except.bind, Session.exportedIn, hcurrent, hm]
  cases write m loaded.document.render <;> rfl

/-- Resolving a name is a retraction onto the menu, whatever the names mean: what a name is resolved
to is the first option that means the same, it is resolved to itself, and every name that means the
same is resolved to it. A file is written in it and labelled with it, as if the name had been
resolved once. With `Charset.registry` and `encodeText` these are `resolve` and `fileResponse`. -/
theorem resolve_retracts (registry : Registry κ) (write : Text → Text → Except Failure Bytes)
    (hknown : settings.menu.KnownIn registry)
    (hfallback : ∃ charset, EncodingMenu.IsFirst registry charset settings.defaultEncoding
      settings.supportedEncodings)
    {encoding : Option Text} (h : settings.menu.resolveIn registry encoding = .ok m) :
    m ∈ settings.supportedEncodings ∧
    (∀ name, encoding = some name → name ≠ [] → ∃ charset, registry.lookup name = .ok charset ∧
      EncodingMenu.IsFirst registry charset m settings.supportedEncodings) ∧
    settings.menu.resolveIn registry (some m) = .ok m ∧
    (∀ other, other ≠ [] → registry.lookup other = registry.lookup m →
      settings.menu.resolveIn registry (some other) = .ok m) ∧
    ∀ session loaded, session.loaded = some loaded →
      fileResponseIn registry write settings session encoding = fileIn write m loaded := by
  obtain ⟨charset, hfirst, hname⟩ :=
    EncodingMenu.exists_isFirst_of_resolveIn hknown hfallback h
  have hsame : ∀ {other}, registry.lookup other = registry.lookup m →
      settings.menu.resolveIn registry (some other) = .ok m := fun hother =>
    EncodingMenu.resolveIn_of_isFirst hknown hfirst (hother.trans hfirst.1)
  refine ⟨hfirst.mem, fun name hsome hne => ⟨charset, hname name hsome hne, hfirst⟩, hsame rfl,
    fun other _ hother => hsame hother, fun session loaded hloaded => ?_⟩
  exact fileResponseIn_eq_fileIn h (hsame rfl) hloaded

end

/-- Of two options with one character set the second is resolved to the first. In a name a letter
outside ASCII is read as a separator. -/
theorem resolve_retracts_repeated :
    let settings : Settings :=
      { supportedEncodings := ["l1".toList, "UTF8".toList, "utf-8".toList]
        defaultEncoding := "l1".toList }
    settings.menu.resolve (some "Utf_8".toList) = .ok "UTF8".toList ∧
      settings.menu.resolve (some "UTF8".toList) = .ok "UTF8".toList ∧
      settings.menu.resolve (some "utf-8".toList) = .ok "UTF8".toList ∧
      settings.menu.resolve (some "iso8859é1".toList) = .ok "l1".toList ∧
      ∀ session loaded, session.loaded = some loaded →
        fileResponse settings session (some "utf-8".toList) =
          fileIn encodeText "UTF8".toList loaded := by
  intro settings
  have hknown : settings.menu.Known := known_repeated
  have hfallback : ∃ charset, EncodingMenu.IsFirst Charset.registry charset
      settings.defaultEncoding settings.supportedEncodings :=
    ⟨.latin1, by decide +kernel, [], _, rfl, List.forall_mem_nil _⟩
  have hresolve : settings.menu.resolve (some "Utf_8".toList) = .ok "UTF8".toList := by
    decide +kernel
  obtain ⟨-, -, hself, hsame, -⟩ :=
    resolve_retracts Charset.registry encodeText hknown hfallback hresolve
  have hother := hsame "utf-8".toList (by decide) (by decide +kernel)
  obtain ⟨-, -, -, -, hfile⟩ :=
    resolve_retracts Charset.registry encodeText hknown hfallback hother
  have hnone : settings.menu.resolveIn Charset.registry none = .ok "l1".toList := rfl
  obtain ⟨-, -, -, hlatin, -⟩ :=
    resolve_retracts Charset.registry encodeText hknown hfallback hnone
  exact ⟨hresolve, hself, hother, hlatin _ (by decide) (by decide +kernel), hfile⟩

end Service

end CueCheck
