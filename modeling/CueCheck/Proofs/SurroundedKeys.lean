import CueCheck.Proofs.PartedTexts

/-!
Keys in the middle of a text: an assigned key and the header that carries one, with anything before
and after them.
-/

namespace CueCheck.Redaction

/-- A character of a key: a letter or digit of ASCII, `_`, `.` or `-`. -/
def isKeyChar (c : Char) : Bool :=
  ('A' ≤ c && c ≤ 'Z') || ('a' ≤ c && c ≤ 'z') || ('0' ≤ c && c ≤ '9') || c == '_' || c == '.' ||
    c == '-'

/-- One or more characters of a key. -/
def IsKey (v : Text) : Prop := v ≠ [] ∧ ∀ c ∈ v, isKeyChar c = true

section Characters

variable {c : Char}

theorem isKeyChar_iff : isKeyChar c = true ↔ (0x41 ≤ c.toNat ∧ c.toNat ≤ 0x5A) ∨
    (0x61 ≤ c.toNat ∧ c.toNat ≤ 0x7A) ∨ (0x30 ≤ c.toNat ∧ c.toNat ≤ 0x39) ∨ c.toNat = 0x5F ∨
      c.toNat = 0x2E ∨ c.toNat = 0x2D := by
  simp [isKeyChar, Char.le_def, UInt32.le_iff_toNat_le, ← Char.toNat_inj, or_assoc]

theorem isSign_of_isKeyChar (h : isKeyChar c = true) : isSign c = false := by
  rw [isKeyChar_iff] at h
  rw [Bool.eq_false_iff, Ne, isSign_iff, isBlank_iff]
  omega

theorem isAssignedChar_of_isKeyChar (h : isKeyChar c = true) : isAssignedChar c = true := by
  rw [isKeyChar_iff] at h
  rw [isAssignedChar_iff, isHeaderChar_iff, Bool.eq_false_iff, Ne, isBlank_iff]
  omega

theorem isHeaderChar_eq_false (h : Text.isBlank c = true ∨ c = ',') : isHeaderChar c = false := by
  rcases h with h | rfl
  · simp [isHeaderChar, h]
  · decide

theorem isAssignedChar_eq_false (h : Text.isBlank c = true ∨ c = ',' ∨ c = ')') :
    isAssignedChar c = false := by
  rcases h with h | rfl | rfl
  · simp [isAssignedChar, isHeaderChar, h]
  · decide
  · decide

end Characters

namespace Shape

/-- What makes a scan for a shape go over a name with a key, or take both for a value. -/
structure PassesKey (s : Shape) (front : Text) : Prop where
  seam : s.Seam front
  apart : ∀ z ∈ front.tails, z ≠ [] → ∀ w ∈ s.names, ¬ Meets w z
  colon : ∀ t rest, s.lead? t = some rest → t.head? = some ':'

section

variable {s : Shape} {before : Option Char} {front p v v' x : Text}

/-- No name with a colon after it starts in a key. -/
theorem replaceAll_append_of_key (hcolon : ∀ t rest, s.lead? t = some rest → t.head? = some ':')
    (hv : ∀ c ∈ v, isKeyChar c = true) (hx : ∀ c ∈ x.head?, isAssignedChar c = false) :
    replaceAll s.find before (v ++ x) = v ++ replaceAll s.find none x := by
  have hx' : ∀ c ∈ x.head?, isNameChar c = false :=
    fun c hc => assignmentShape.isNameChar_of_inValue (hx c hc)
  rw [replaceAll_append_of_none, replaceAll_of_front hx']
  intro z before hne hz
  rw [Option.eq_none_iff_forall_ne_some]
  intro found hfound
  obtain ⟨-, name, after, value, rest, hreads, -⟩ := find_eq_some_iff.1 hfound
  have hafter := hcolon _ _ hreads.lead
  have hkey : ∀ c ∈ z, c ≠ ':' := by
    rintro c hc rfl
    cases hv _ (hz.subset hc)
  have hend : x.head? ≠ some ':' := by
    intro hcolon
    cases hx _ hcolon
  rcases List.append_eq_append_iff.1 hreads.eq_append with ⟨y, rfl, rfl⟩ | ⟨y, rfl, rfl⟩
  · cases y with
    | nil => exact hend hafter
    | cons c y =>
      have hname := isNameChar_of_named hreads.named c (by simp)
      rw [hx' c rfl] at hname
      cases hname
  · cases y with
    | nil => exact hend hafter
    | cons c y =>
      injection hafter with hc
      exact hkey c (by simp) hc

/-- A scan that has come to the end of what is in front leaves the name and the key. -/
theorem PassesKey.replaceAll_eq (h : s.PassesKey front) (hopen : ¬ s.Open none p)
    (hv : ∀ c ∈ v, isKeyChar c = true) (hx : ∀ c ∈ x.head?, isAssignedChar c = false) :
    replaceAll s.find none (p ++ (front ++ (v ++ x))) =
      replaceAll s.find none p ++ (front ++ (v ++ replaceAll s.find none x)) := by
  rw [h.seam.replaceAll_append (List.prefix_append front _) (.inl hopen),
    replaceAll_append_of_apart h.apart, replaceAll_append_of_key h.colon hv hx]

/-- A scan that is still inside a value takes the name and the key with it. -/
theorem Seam.replaceAll_eq_of_open (h : s.Seam front) (hlength : s.minLength = 1)
    (hopen : s.Open none p) (hfront : ∀ c ∈ front, s.inValue c = true)
    (hkey : ∀ c, isKeyChar c = true → s.inValue c = true) (hv : ∀ c ∈ v, isKeyChar c = true)
    (hv' : ∀ c ∈ v', isKeyChar c = true) :
    replaceAll s.find none (p ++ (front ++ (v ++ x))) =
      replaceAll s.find none (p ++ (front ++ (v' ++ x))) := by
  obtain ⟨a, -, ha⟩ := h.swallows_of_open hlength hopen
  have htake {v : Text} (hv : ∀ c ∈ v, isKeyChar c = true) :
      replaceAll s.find none (p ++ (front ++ (v ++ x))) =
        a ++ replaceAll s.find none (x.dropWhile s.inValue) := by
    obtain ⟨c, hc, -⟩ := h.sign
    rw [← ha (front ++ (v ++ x.takeWhile s.inValue)) _ ⟨_, List.append_assoc .. |>.symm⟩ ?_ ?_
      (front_dropWhile s.inValue x)]
    · simp only [List.append_assoc, List.takeWhile_append_dropWhile]
    · intro hnil
      rw [(List.append_eq_nil_iff.1 hnil).1] at hc
      cases hc
    · simp only [List.mem_append]
      rintro d (hd | hd | hd)
      · exact hfront d hd
      · exact hkey d (hv d hd)
      · exact List.mem_takeWhile_imp hd
  rw [htake hv, htake hv']

end

end Shape

section Shapes

theorem authorization_passes_assignment : authorizationShape.PassesKey "API_KEY=".toList where
  seam := ⟨⟨'A', rfl, by decide⟩, by decide +kernel, by decide +kernel⟩
  apart := by decide +kernel
  colon := authorization_colon

theorem header_passes_assignment : headerShape.PassesKey "API_KEY=".toList where
  seam := ⟨⟨'A', rfl, by decide⟩, by decide +kernel, by decide +kernel⟩
  apart := by decide +kernel
  colon := header_colon

theorem assignment_seam : assignmentShape.Seam "API_KEY=".toList :=
  ⟨⟨'A', rfl, by decide⟩, by decide +kernel, by decide +kernel⟩

end Shapes

section Assignment

variable {s : Shape} {p x v v' : Text}

theorem isWord_getLast?_replaceAll (hp : ∀ c ∈ p.getLast?, Text.isWord c = false) :
    ∀ c ∈ (replaceAll s.find none p).getLast?, Text.isWord c = false := by
  intro c hc
  rcases s.getLast?_replaceAll none p with hlast | hlast
  · rw [hlast] at hc
    exact hp c hc
  · rw [hlast] at hc
    injection hc with hc
    rw [← hc]
    decide +kernel

theorem head?_replaceAll (hx : ∀ c ∈ x.head?, isAssignedChar c = false) :
    ∀ c ∈ (replaceAll s.find none x).head?, isAssignedChar c = false := by
  rw [(rewritten_replaceAll s.consumes_find).head?_eq]
  · exact hx
  · exact fun c hc => assignmentShape.isNameChar_of_inValue (hx c hc)

/-- The scan for assignments masks the key, at the start of a word or inside another value. -/
theorem replaceAll_assignment_eq (hp : ∀ c ∈ p.getLast?, Text.isWord c = false)
    (hx : ∀ c ∈ x.head?, isAssignedChar c = false) (hv : IsKey v) (hv' : IsKey v') :
    replaceAll assignmentShape.find none (p ++ ("API_KEY=".toList ++ (v ++ x))) =
      replaceAll assignmentShape.find none (p ++ ("API_KEY=".toList ++ (v' ++ x))) := by
  by_cases hopen : assignmentShape.Open none p
  · exact assignment_seam.replaceAll_eq_of_open rfl hopen
      (List.all_eq_true.1 (by decide +kernel)) (fun c => isAssignedChar_of_isKeyChar) hv.2 hv'.2
  · have hword : atWordStart (p.getLast?.or none) = true := by
      rw [Option.or_none]
      cases hlast : p.getLast? with
      | none => rfl
      | some c => simp [atWordStart, hp c hlast]
    have hmask {v : Text} (hv : IsKey v) :
        replaceAll assignmentShape.find (p.getLast?.or none) ("API_KEY=".toList ++ (v ++ x)) =
          assignmentShape.written "API_KEY".toList ++ replaceAll assignmentShape.find none x := by
      have hreads : assignmentShape.Reads ("API_KEY=".toList ++ (v ++ x)) "API_KEY".toList
          ('=' :: (v ++ x)) (v ++ x) := ⟨rfl, by decide +kernel, rfl⟩
      apply hreads.replaceAll_eq (fun _ => hword)
      rw [Shape.credential?_of_scheme rfl]
      exact Shape.value?_of_run rfl hv.1 (fun c hc => isAssignedChar_of_isKeyChar (hv.2 c hc)) hx
    rw [assignment_seam.replaceAll_append (List.prefix_append ..) (.inl hopen),
      assignment_seam.replaceAll_append (List.prefix_append ..) (.inl hopen), hmask hv, hmask hv']

/-- An assigned key is not seen after a redaction, whatever stands around it. -/
theorem redact_assigned_key {s : Text} (hp : ∀ c ∈ p.getLast?, Text.isWord c = false)
    (hs : ∀ c ∈ s.head?, Text.isBlank c = true ∨ c = ',' ∨ c = ')') (hv : IsKey v)
    (hv' : IsKey v') :
    redact (p ++ "API_KEY=".toList ++ v ++ s) = redact (p ++ "API_KEY=".toList ++ v' ++ s) := by
  have hs' : ∀ c ∈ s.head?, isAssignedChar c = false :=
    fun c hc => isAssignedChar_eq_false (hs c hc)
  have hscan (t : Text) : redact t = scanFor [namedShape, bearerShape]
      (replaceAll assignmentShape.find none (replaceAll headerShape.find none
        (replaceAll authorizationShape.find none t))) := by
    rw [redact_eq_scanFor]
    rfl
  rw [hscan, hscan]
  simp only [List.append_assoc]
  refine congrArg (scanFor [namedShape, bearerShape]) ?_
  have hkey (c : Char) (hc : isKeyChar c = true) : isHeaderChar c = true :=
    (isAssignedChar_iff.1 (isAssignedChar_of_isKeyChar hc)).1
  -- Each scan for headers either takes the key with a value or leaves it between the same kinds of
  -- characters.
  by_cases hopen : authorizationShape.Open none p
  · rw [authorization_passes_assignment.seam.replaceAll_eq_of_open rfl hopen
      (List.all_eq_true.1 (by decide +kernel)) hkey hv.2 hv'.2]
  rw [authorization_passes_assignment.replaceAll_eq hopen hv.2 hs',
    authorization_passes_assignment.replaceAll_eq hopen hv'.2 hs']
  replace hp := isWord_getLast?_replaceAll (s := authorizationShape) hp
  replace hs := head?_replaceAll (s := authorizationShape) hs'
  generalize replaceAll authorizationShape.find none p = p at hp
  generalize replaceAll authorizationShape.find none s = s at hs
  by_cases hopen : headerShape.Open none p
  · rw [header_passes_assignment.seam.replaceAll_eq_of_open rfl hopen
      (List.all_eq_true.1 (by decide +kernel)) hkey hv.2 hv'.2]
  rw [header_passes_assignment.replaceAll_eq hopen hv.2 hs,
    header_passes_assignment.replaceAll_eq hopen hv'.2 hs]
  exact replaceAll_assignment_eq (isWord_getLast?_replaceAll hp) (head?_replaceAll hs) hv hv'

/-- The key is masked also inside a bracket after a header that a scan comes to first. -/
theorem redact_assigned_key_bracketed :
    redact ("X-API-Key: a, (".toList ++ "API_KEY=".toList ++ "k3y-1".toList ++
        ") token: b".toList) =
      redact ("X-API-Key: a, (".toList ++ "API_KEY=".toList ++ "Authorization".toList ++
        ") token: b".toList) := by
  have hlast : "X-API-Key: a, (".toList.getLast? = some '(' := by decide +kernel
  have hhead : ") token: b".toList.head? = some ')' := by decide +kernel
  apply redact_assigned_key
  · intro c hc
    rw [hlast] at hc
    cases hc
    decide +kernel
  · intro c hc
    rw [hhead] at hc
    cases hc
    exact .inr (.inr rfl)
  · exact ⟨by decide, List.all_eq_true.1 (by decide +kernel)⟩
  · exact ⟨by decide, List.all_eq_true.1 (by decide +kernel)⟩

end Assignment

/-- A scan leaves the header that stands after a text in its place, rather than take its name for a
value that the text began. -/
def KeepsHeader (finder : Finder) (t : Text) : Prop :=
  replaceAll finder none (t ++ "X-API-Key: ".toList) =
    replaceAll finder none t ++ "X-API-Key: ".toList

instance (finder : Finder) (t : Text) : Decidable (KeepsHeader finder t) :=
  inferInstanceAs (Decidable (_ = _))

section Marks

variable {s : Shape} {a x : Text} {shapes : List Shape}

theorem not_meets_star {w z : Text} (hw : w.all isFoldedNameChar = true) (hz : z <:+ w)
    (hne : z ≠ []) : ¬ Meets z ['*'] := by
  cases z with
  | nil => exact absurd rfl hne
  | cons c z =>
    have hc := List.all_eq_true.1 hw c (hz.subset List.mem_cons_self)
    rintro (⟨u, hu⟩ | ⟨u, hu⟩)
    · injection hu with hu
      subst hu
      cases hc
    · injection hu with hu
      subst hu
      cases hc

theorem seam_star (s : Shape) : s.Seam ['*'] where
  sign := ⟨'*', rfl, by decide⟩
  names w hw z hz hne := not_meets_star (s.name_chars w hw).2
    (((List.mem_tails ..).1 hz).trans (List.tail_suffix w)) hne
  scheme w hw z hz hne := by
    obtain ⟨rfl, -⟩ := s.scheme_spec w hw
    exact not_meets_star (by decide +kernel) ((List.mem_tails ..).1 hz) hne

theorem replaceAll_blank {before : Option Char} {d : Char} (hd : isNameChar d = false)
    (hx : ∀ c ∈ x.head?, isNameChar c = false) :
    replaceAll s.find before (' ' :: d :: x) = ' ' :: d :: replaceAll s.find none x := by
  rw [Shape.replaceAll_cons (by decide), Shape.replaceAll_cons hd,
    Shape.replaceAll_of_front hx none]

/-- What stands a blank after a mask is not taken for a value. -/
theorem exists_replaceAll_marked (s : Shape) (ha : a.getLast? = some '*') :
    ∃ b, b.getLast? = some '*' ∧ ∀ d x, isNameChar d = false →
      (∀ c ∈ x.head?, isNameChar c = false) → replaceAll s.find none (a ++ ' ' :: d :: x) =
        b ++ ' ' :: d :: replaceAll s.find none x := by
  obtain ⟨a, rfl⟩ := List.getLast?_eq_some_iff.1 ha
  by_cases hopen : s.inValue '*' = true ∧ s.Open none a
  · obtain ⟨hin, hopen⟩ := hopen
    have hlength : s.minLength = 1 := by
      rcases s.mask_cases with ⟨hlength, -⟩ | hout
      · exact hlength
      · rw [hin] at hout
        cases hout
    obtain ⟨b, hlast, hb⟩ := (seam_star s).swallows_of_open hlength hopen
    refine ⟨b, hlast, fun d x hd hx => ?_⟩
    rw [← replaceAll_blank hd hx, List.append_assoc]
    apply hb ['*']
    · exact List.prefix_append ..
    · simp
    · simpa using hin
    · rintro c ⟨⟩
      exact s.inValue_blank ' ' (by decide)
  · refine ⟨replaceAll s.find none a ++ ['*'], by simp, fun d x hd hx => ?_⟩
    have hclosed : ¬ s.Open none a ∨ ∀ c ∈ (['*'] ++ ' ' :: d :: x).head?, s.inValue c = false := by
      rcases not_and_or.1 hopen with hout | hclosed
      · right
        intro c hc
        injection hc with hc
        rw [← hc]
        exact (Bool.not_eq_true _).mp hout
      · exact .inl hclosed
    rw [List.append_assoc, (seam_star s).replaceAll_append (List.prefix_append ..) hclosed,
      List.append_assoc]
    apply congrArg (replaceAll s.find none a ++ ·)
    rw [List.singleton_append, Shape.replaceAll_cons (by decide), replaceAll_blank hd hx]
    rfl

/-- Scans keep apart what differs a blank after a mask. -/
theorem exists_scanFor_marked (shapes : List Shape) (ha : a.getLast? = some '*') :
    ∃ b, ∀ d x, isNameChar d = false → (∀ c ∈ x.head?, isNameChar c = false) →
      scanFor shapes (a ++ ' ' :: d :: x) = b ++ ' ' :: d :: scanFor shapes x := by
  induction shapes generalizing a with
  | nil => exact ⟨a, fun d x _ _ => rfl⟩
  | cons s shapes ih =>
    obtain ⟨b, hlast, hb⟩ := exists_replaceAll_marked s ha
    obtain ⟨b', hb'⟩ := ih hlast
    refine ⟨b', fun d x hd hx => ?_⟩
    have hfront : ∀ c ∈ (replaceAll s.find none x).head?, isNameChar c = false := by
      rwa [(rewritten_replaceAll s.consumes_find).head?_eq hx]
    rw [scanFor_cons, hb d x hd hx, scanFor_cons]
    exact hb' d _ hd hfront

end Marks

/-- What makes a scan for a shape leave the header alone, or take its name for a value. -/
structure Shape.MeetsHeader (s : Shape) : Prop where
  seam : s.Seam "X-API-Key: ".toList
  length : s.minLength = 1
  inValue : ∀ c ∈ "X-API-Key:".toList, s.inValue c = true
  startsWord : s.startsWord = false
  keeps : replaceAll s.find none "X-API-Key: ".toList = "X-API-Key: ".toList

section Header

variable {s : Shape} {p x v v' : Text}

theorem header_eq_append (x : Text) :
    "X-API-Key: ".toList ++ x = "X-API-Key:".toList ++ ([' '] ++ x) := by
  rw [← List.append_assoc]
  exact congrArg (· ++ x) (by decide +kernel)

theorem authorization_meets : authorizationShape.MeetsHeader where
  seam := ⟨⟨'X', rfl, by decide⟩, by decide +kernel, by decide +kernel⟩
  length := rfl
  inValue := List.all_eq_true.1 (by decide +kernel)
  startsWord := rfl
  keeps := by
    rw [← authorization_eq]
    decide +kernel

theorem header_meets : headerShape.MeetsHeader where
  seam := ⟨⟨'X', rfl, by decide⟩, by decide +kernel, by decide +kernel⟩
  length := rfl
  inValue := List.all_eq_true.1 (by decide +kernel)
  startsWord := rfl
  keeps := by
    rw [← apiKeyHeader_eq]
    decide +kernel

theorem authorization_passes_header : authorizationShape.PassesKey "X-API-Key: ".toList where
  seam := authorization_meets.seam
  apart := by decide +kernel
  colon := authorization_colon

theorem replaceAll_of_startsWord (h : s.startsWord = false) (before : Option Char) (t : Text) :
    replaceAll s.find before t = replaceAll s.find none t := by
  have hfind : s.find before t = s.find none t := by
    rw [Shape.find_eq_bind, Shape.find_eq_bind, h]
    rfl
  cases t with
  | nil => rw [replaceAll_nil, replaceAll_nil]
  | cons c t => rw [replaceAll, replaceAll, hfind]

/-- Where a scan takes the name of the header for a value, a mask and a blank are left of it. -/
theorem Shape.MeetsHeader.exists_of_open (h : s.MeetsHeader) (hopen : s.Open none p) :
    ∃ a, a.getLast? = some '*' ∧ ∀ x, replaceAll s.find none (p ++ ("X-API-Key: ".toList ++ x)) =
      a ++ replaceAll s.find none (' ' :: x) := by
  obtain ⟨a, hlast, ha⟩ := h.seam.swallows_of_open h.length hopen
  refine ⟨a, hlast, fun x => ?_⟩
  rw [header_eq_append]
  apply ha
  · exact ⟨x, header_eq_append x⟩
  · decide
  · exact h.inValue
  · rintro c ⟨⟩
    exact s.inValue_blank ' ' (by decide)

theorem Shape.MeetsHeader.keepsHeader_iff (h : s.MeetsHeader) :
    KeepsHeader s.find p ↔ ¬ s.Open none p := by
  constructor
  · intro hkeeps hopen
    obtain ⟨a, hlast, ha⟩ := h.exists_of_open hopen
    have hscan := ha []
    rw [List.append_nil, Shape.replaceAll_cons (by decide), replaceAll_nil, hkeeps,
      ← List.append_nil "X-API-Key: ".toList, header_eq_append, List.append_nil,
      ← List.append_assoc] at hscan
    have hcolon : "X-API-Key:".toList.getLast? = some ':' := by decide +kernel
    rw [← List.append_cancel_right hscan, List.getLast?_append, hcolon] at hlast
    cases hlast
  · intro hopen
    rw [KeepsHeader, h.seam.replaceAll_append List.prefix_rfl (.inl hopen),
      replaceAll_of_startsWord h.startsWord (p.getLast?.or none), h.keeps]

/-- A header that its scan comes to is masked with its key. -/
theorem replaceAll_header (hopen : ¬ headerShape.Open none p) (hv : IsKey v)
    (hx : ∀ c ∈ x.head?, isHeaderChar c = false) :
    replaceAll headerShape.find none (p ++ ("X-API-Key: ".toList ++ (v ++ x))) =
      replaceAll headerShape.find none p ++
        (headerShape.written "X-API-Key".toList ++ replaceAll headerShape.find none x) := by
  have hreads : headerShape.Reads ("X-API-Key: ".toList ++ (v ++ x)) "X-API-Key".toList
      (':' :: ' ' :: (v ++ x)) (v ++ x) := by
    have hname : "X-API-Key: ".toList = "X-API-Key".toList ++ [':', ' '] := by decide +kernel
    refine ⟨by rw [hname, List.append_assoc]; rfl, by decide +kernel, ?_⟩
    have hblank : ∀ c ∈ (v ++ x).head?, Text.isBlank c = false := by
      obtain ⟨c, v, rfl⟩ := List.exists_cons_of_ne_nil hv.1
      rintro _ ⟨⟩
      rw [Bool.eq_false_iff]
      intro hblank
      have hsign := isSign_of_isKeyChar (hv.2 c List.mem_cons_self)
      rw [isSign_of_isBlank hblank] at hsign
      cases hsign
    exact congrArg some ((List.dropWhile_cons_of_pos (by decide)).trans (dropWhile_of_front hblank))
  rw [header_meets.seam.replaceAll_append (List.prefix_append ..) (.inl hopen)]
  apply congrArg (replaceAll headerShape.find none p ++ ·)
  apply hreads.replaceAll_eq (fun hword => nomatch hword)
  rw [Shape.credential?_of_scheme rfl]
  refine Shape.value?_of_run rfl hv.1 (fun c hc => ?_) hx
  exact (isAssignedChar_iff.1 (isAssignedChar_of_isKeyChar (hv.2 c hc))).1

/-- Where a scan takes the name of the header for a value, the key after it is seen. -/
theorem Shape.MeetsHeader.scanFor_ne (h : s.MeetsHeader) (shapes : List Shape)
    (hopen : s.Open none p) (hx : ∀ c ∈ x.head?, isNameChar c = false) :
    scanFor (s :: shapes) (p ++ ("X-API-Key: ".toList ++ (['0'] ++ x))) ≠
      scanFor (s :: shapes) (p ++ ("X-API-Key: ".toList ++ (['1'] ++ x))) := by
  obtain ⟨a, hlast, ha⟩ := h.exists_of_open hopen
  obtain ⟨b, hb⟩ := exists_scanFor_marked shapes hlast
  have hx' : ∀ c ∈ (replaceAll s.find none x).head?, isNameChar c = false := by
    rwa [(rewritten_replaceAll s.consumes_find).head?_eq hx]
  have hscan {d : Char} (hd : isNameChar d = false) :
      scanFor (s :: shapes) (p ++ ("X-API-Key: ".toList ++ ([d] ++ x))) =
        b ++ ' ' :: d :: scanFor shapes (replaceAll s.find none x) := by
    rw [scanFor_cons, ha, List.singleton_append, replaceAll_blank hd hx]
    exact hb d _ hd hx'
  rw [hscan (by decide), hscan (by decide)]
  intro heq
  have hrest := List.append_cancel_left heq
  injection hrest with _ hrest
  injection hrest with hdigit
  cases hdigit

/-- The key of a header is not seen after a redaction, whatever it is, exactly if neither of the
scans for headers takes the name of the header for a value. -/
theorem redact_header_key_iff {p s : Text} (hs : ∀ c ∈ s.head?, Text.isBlank c = true ∨ c = ',') :
    (∀ v v', IsKey v → IsKey v' →
      redact (p ++ "X-API-Key: ".toList ++ v ++ s) =
        redact (p ++ "X-API-Key: ".toList ++ v' ++ s)) ↔
    KeepsHeader authorization p ∧ KeepsHeader apiKeyHeader (replaceAll authorization none p) := by
  have hheader : ∀ c ∈ s.head?, isHeaderChar c = false :=
    fun c hc => isHeaderChar_eq_false (hs c hc)
  have hassigned : ∀ c ∈ s.head?, isAssignedChar c = false :=
    fun c hc => isAssignedChar_eq_false ((hs c hc).imp_right .inl)
  have hname : ∀ c ∈ s.head?, isNameChar c = false :=
    fun c hc => headerShape.isNameChar_of_inValue (hheader c hc)
  rw [authorization_eq, apiKeyHeader_eq, authorization_meets.keepsHeader_iff,
    header_meets.keepsHeader_iff]
  have hscan {v : Text} (hauthorization : ¬ authorizationShape.Open none p) (hv : IsKey v) :
      redact (p ++ "X-API-Key: ".toList ++ v ++ s) =
        scanFor [headerShape, assignmentShape, namedShape, bearerShape]
          (replaceAll authorizationShape.find none p ++ ("X-API-Key: ".toList ++
            (v ++ replaceAll authorizationShape.find none s))) := by
    rw [redact_eq_scanFor, scanFor_cons]
    simp only [List.append_assoc]
    rw [authorization_passes_header.replaceAll_eq hauthorization hv.2 hassigned]
  constructor
  · intro hsame
    have hzero : IsKey ['0'] := ⟨by decide, List.forall_mem_singleton.2 (by decide)⟩
    have hone : IsKey ['1'] := ⟨by decide, List.forall_mem_singleton.2 (by decide)⟩
    have hkey := hsame ['0'] ['1'] hzero hone
    have hauthorization : ¬ authorizationShape.Open none p := by
      intro hopen
      simp only [redact_eq_scanFor, List.append_assoc] at hkey
      exact authorization_meets.scanFor_ne _ hopen hname hkey
    refine ⟨hauthorization, fun hopen => ?_⟩
    rw [hscan hauthorization hzero, hscan hauthorization hone] at hkey
    refine header_meets.scanFor_ne _ hopen ?_ hkey
    rwa [(rewritten_replaceAll authorizationShape.consumes_find).head?_eq hname]
  · rintro ⟨hauthorization, hopen⟩ v v' hv hv'
    have hfront : ∀ c ∈ (replaceAll authorizationShape.find none s).head?,
        isHeaderChar c = false := by
      rwa [(rewritten_replaceAll authorizationShape.consumes_find).head?_eq hname]
    rw [hscan hauthorization hv, hscan hauthorization hv', scanFor_cons headerShape,
      scanFor_cons headerShape, replaceAll_header hopen hv hfront,
      replaceAll_header hopen hv' hfront]

/-- After a list of headers that ends with another value the key is masked. -/
theorem redact_header_key_listed :
    redact ("Authorization: Bearer a, X-API-Key: b\n".toList ++ "X-API-Key: ".toList ++
        "k3y-1".toList ++ ", c".toList) =
      redact ("Authorization: Bearer a, X-API-Key: b\n".toList ++ "X-API-Key: ".toList ++
        "Bearer".toList ++ ", c".toList) := by
  have hhead : ", c".toList.head? = some ',' := by decide +kernel
  apply (redact_header_key_iff _).2
  · decide +kernel
  · exact ⟨by decide, List.all_eq_true.1 (by decide +kernel)⟩
  · exact ⟨by decide, List.all_eq_true.1 (by decide +kernel)⟩
  · intro c hc
    rw [hhead] at hc
    cases hc
    exact .inr rfl

/-- The header before, still without a value, takes the name for one, and the key is seen. -/
theorem redact_header_key_seen :
    redact ("Authorization: \n".toList ++ "X-API-Key: ".toList ++ "k3y-1".toList) =
      "Authorization: ***REDACTED*** k3y-1".toList ∧
    redact ("Authorization: \n".toList ++ "X-API-Key: ".toList ++ "k3y-1".toList) ≠
      redact ("Authorization: \n".toList ++ "X-API-Key: ".toList ++ "k3y-2".toList) := by
  decide +kernel

end Header

end CueCheck.Redaction
