import CueCheck.Proofs.CodePages
import CueCheck.Settings
import Mathlib.Data.List.TakeWhile

/-!
Writing a text and reading it again, in each character set: what is written is read as the text it
was, and writing fails just for characters that the character set lacks.
-/

namespace CueCheck

namespace Utf8

theorem isTail_iff {b : UInt8} : isTail b = true ↔ 0x80 ≤ b.toNat ∧ b.toNat ≤ 0xBF := by
  simp [isTail, UInt8.le_iff_toNat_le]

theorem isSecond_iff {lead b : UInt8} :
    isSecond lead b = true ↔ (0x80 ≤ b.toNat ∧ b.toNat ≤ 0xBF) ∧
      (lead.toNat = 0xE0 → 0xA0 ≤ b.toNat) ∧ (lead.toNat = 0xED → b.toNat ≤ 0x9F) ∧
      (lead.toNat = 0xF0 → 0x90 ≤ b.toNat) ∧ (lead.toNat = 0xF4 → b.toNat ≤ 0x8F) := by
  simp [isSecond, isTail_iff, UInt8.le_iff_toNat_le, ← UInt8.toNat_inj, imp_iff_not_or, and_assoc]

section Bytes

variable {ch : Char} {a b c d : UInt8} (offset : Nat) (rest : Bytes)

theorem decodeFrom_one (ha : a.toNat < 0x80) (hch : a.toNat = ch.toNat) :
    decodeFrom offset (a :: rest) = (decodeFrom (offset + 1) rest).map (ch :: ·) := by
  have hlt : a < 0x80 := ha
  rw [decodeFrom.eq_def]
  simp only [if_pos hlt, hch, Char.ofNat_toNat]

theorem decodeFrom_two (ha : 0xC2 ≤ a.toNat ∧ a.toNat < 0xE0) (hb : isSecond a b = true)
    (hch : a.toNat % 0x20 * 0x40 + tailBits b = ch.toNat) :
    decodeFrom offset (a :: b :: rest) = (decodeFrom (offset + 2) rest).map (ch :: ·) := by
  have hlead : 0xC2 ≤ a ∧ a < 0xE0 := ha
  have h₁ : ¬ a < 0x80 := by grind
  have h₂ : ¬ (a < 0xC2 || 0xF4 < a) = true := by grind
  rw [decodeFrom.eq_def]
  simp only [if_neg h₁, if_neg h₂, hb, if_pos hlead.2, hch, Char.ofNat_toNat]
  rfl

theorem decodeFrom_three (ha : 0xE0 ≤ a.toNat ∧ a.toNat < 0xF0) (hb : isSecond a b = true)
    (hc : isTail c = true)
    (hch : a.toNat % 0x10 * 0x1000 + tailBits b * 0x40 + tailBits c = ch.toNat) :
    decodeFrom offset (a :: b :: c :: rest) = (decodeFrom (offset + 3) rest).map (ch :: ·) := by
  have hlead : 0xE0 ≤ a ∧ a < 0xF0 := ha
  have h₁ : ¬ a < 0x80 := by grind
  have h₂ : ¬ (a < 0xC2 || 0xF4 < a) = true := by grind
  have h₃ : ¬ a < 0xE0 := by grind
  rw [decodeFrom.eq_def]
  simp only [if_neg h₁, if_neg h₂, hb, if_neg h₃, hc, if_pos hlead.2, hch, Char.ofNat_toNat]
  rfl

theorem decodeFrom_four (ha : 0xF0 ≤ a.toNat ∧ a.toNat ≤ 0xF4) (hb : isSecond a b = true)
    (hc : isTail c = true) (hd : isTail d = true)
    (hch : a.toNat % 8 * 0x40000 + tailBits b * 0x1000 + tailBits c * 0x40 + tailBits d =
      ch.toNat) :
    decodeFrom offset (a :: b :: c :: d :: rest) =
      (decodeFrom (offset + 4) rest).map (ch :: ·) := by
  have hlead : 0xF0 ≤ a ∧ a ≤ 0xF4 := ha
  have h₁ : ¬ a < 0x80 := by grind
  have h₂ : ¬ (a < 0xC2 || 0xF4 < a) = true := by grind
  have h₃ : ¬ a < 0xE0 := by grind
  have h₄ : ¬ a < 0xF0 := by grind
  rw [decodeFrom.eq_def]
  simp only [if_neg h₁, if_neg h₂, hb, if_neg h₃, hc, if_neg h₄, hd, hch, Char.ofNat_toNat]
  rfl

end Bytes

/-- The bytes of a character are read as that character, whatever comes after them. -/
theorem decodeFrom_encodeChar (ch : Char) (offset : Nat) (rest : Bytes) :
    decodeFrom offset (encodeChar ch ++ rest) =
      (decodeFrom (offset + (encodeChar ch).length) rest).map (ch :: ·) := by
  -- No character has the code point of a surrogate: this is what the second byte is checked for.
  have hvalid : ch.toNat < 0xD800 ∨ 0xDFFF < ch.toNat ∧ ch.toNat < 0x110000 := ch.valid
  simp only [encodeChar]
  split
  · have ha := toNat_ofNat_byte (n := ch.toNat) (by omega)
    exact decodeFrom_one offset rest (by omega) ha
  split
  · have ha := toNat_ofNat_byte (n := 0xC0 + ch.toNat / 0x40) (by omega)
    have hb := toNat_ofNat_byte (n := 0x80 + ch.toNat % 0x40) (by omega)
    refine decodeFrom_two offset rest (by omega) (isSecond_iff.2 (by omega)) ?_
    rw [tailBits]
    omega
  split
  · have ha := toNat_ofNat_byte (n := 0xE0 + ch.toNat / 0x1000) (by omega)
    have hb := toNat_ofNat_byte (n := 0x80 + ch.toNat / 0x40 % 0x40) (by omega)
    have hc := toNat_ofNat_byte (n := 0x80 + ch.toNat % 0x40) (by omega)
    refine decodeFrom_three offset rest (by omega) (isSecond_iff.2 (by omega))
      (isTail_iff.2 (by omega)) ?_
    rw [tailBits, tailBits]
    omega
  · have ha := toNat_ofNat_byte (n := 0xF0 + ch.toNat / 0x40000) (by omega)
    have hb := toNat_ofNat_byte (n := 0x80 + ch.toNat / 0x1000 % 0x40) (by omega)
    have hc := toNat_ofNat_byte (n := 0x80 + ch.toNat / 0x40 % 0x40) (by omega)
    have hd := toNat_ofNat_byte (n := 0x80 + ch.toNat % 0x40) (by omega)
    refine decodeFrom_four offset rest (by omega) (isSecond_iff.2 (by omega))
      (isTail_iff.2 (by omega)) (isTail_iff.2 (by omega)) ?_
    rw [tailBits, tailBits, tailBits]
    omega

theorem decodeFrom_encode (t : Text) (offset : Nat) : decodeFrom offset (encode t) = .ok t := by
  induction t generalizing offset with
  | nil => rfl
  | cons c t ih =>
    rw [encode, List.flatMap_cons, decodeFrom_encodeChar, ← encode, ih]
    rfl

end Utf8

namespace Utf16

theorem unit_unitBytes {n : Nat} (hn : n < 0x10000) :
    ByteOrder.little.unit (UInt8.ofNat (n % 0x100)) (UInt8.ofNat (n / 0x100)) = n := by
  have hlow := toNat_ofNat_byte (n := n % 0x100) (by omega)
  have hhigh := toNat_ofNat_byte (n := n / 0x100) (by omega)
  rw [ByteOrder.unit, hlow, hhigh]
  omega

theorem isHigh_iff {u : Nat} : isHigh u = true ↔ 0xD800 ≤ u ∧ u < 0xDC00 := by
  simp [isHigh]

theorem isLow_iff {u : Nat} : isLow u = true ↔ 0xDC00 ≤ u ∧ u < 0xE000 := by
  simp [isLow]

section Units

variable {c : Char} (offset : Nat) (rest : Bytes)

theorem decodeFrom_unit (hc : c.toNat < 0x10000) :
    decodeFrom .little offset (unitBytes c.toNat ++ rest) =
      (decodeFrom .little (offset + 2) rest).map (c :: ·) := by
  have hvalid : c.toNat < 0xD800 ∨ 0xDFFF < c.toNat ∧ c.toNat < 0x110000 := c.valid
  have hhigh : ¬ isHigh c.toNat = true := by
    rw [isHigh_iff]
    omega
  have hlow : ¬ isLow c.toNat = true := by
    rw [isLow_iff]
    omega
  rw [unitBytes, List.cons_append, List.singleton_append, decodeFrom.eq_def]
  simp only [unit_unitBytes hc, if_neg hhigh, if_neg hlow, Char.ofNat_toNat]

theorem decodeFrom_pair {u v : Nat} (hu : isHigh u = true) (hv : isLow v = true)
    (hc : 0x10000 + (u - 0xD800) * 0x400 + (v - 0xDC00) = c.toNat) :
    decodeFrom .little offset (unitBytes u ++ unitBytes v ++ rest) =
      (decodeFrom .little (offset + 4) rest).map (c :: ·) := by
  have hu' := isHigh_iff.1 hu
  have hv' := isLow_iff.1 hv
  have hunit := unit_unitBytes (n := u) (by omega)
  have hunit' := unit_unitBytes (n := v) (by omega)
  simp only [unitBytes, List.cons_append, List.nil_append]
  rw [decodeFrom.eq_def]
  simp only [hunit, hunit', if_pos hu, if_pos hv, hc, Char.ofNat_toNat]

end Units

/-- The units of a character are read as that character, whatever comes after them. -/
theorem decodeFrom_encodeChar (c : Char) (offset : Nat) (rest : Bytes) :
    decodeFrom .little offset (encodeChar c ++ rest) =
      (decodeFrom .little (offset + (encodeChar c).length) rest).map (c :: ·) := by
  have hvalid : c.toNat < 0xD800 ∨ 0xDFFF < c.toNat ∧ c.toNat < 0x110000 := c.valid
  simp only [encodeChar]
  split
  · next hc => exact decodeFrom_unit offset rest hc
  · apply decodeFrom_pair offset rest
    · rw [isHigh_iff]
      omega
    · rw [isLow_iff]
      omega
    · omega

theorem decode_encode (t : Text) : decode (encode t) = .ok t := by
  have hunits (offset : Nat) : decodeFrom .little offset (t.flatMap encodeChar) = .ok t := by
    induction t generalizing offset with
    | nil => rfl
    | cons c t ih =>
      rw [List.flatMap_cons, decodeFrom_encodeChar, ih]
      rfl
  exact hunits 2

end Utf16

/-- The first characters of a text that fail a condition, as many as there are in a row. -/
def IsFirstGap (p : Char → Prop) (t run : Text) : Prop :=
  ∃ before after, t = before ++ run ++ after ∧ (∀ c ∈ before, p c) ∧
    run ≠ [] ∧ (∀ c ∈ run, ¬ p c) ∧ ∀ c ∈ after.head?, p c

theorem IsFirstGap.cons {p : Char → Prop} {t run : Text} {c : Char} (hc : p c)
    (h : IsFirstGap p t run) : IsFirstGap p (c :: t) run := by
  obtain ⟨before, after, rfl, hbefore, hrun⟩ := h
  exact ⟨c :: before, after, rfl, List.forall_mem_cons.2 ⟨hc, hbefore⟩, hrun⟩

theorem isFirstGap_takeWhile {p : Char → Prop} {q : Char → Bool} (hq : ∀ c, q c = true ↔ ¬ p c)
    {c : Char} (hc : ¬ p c) (t : Text) : IsFirstGap p (c :: t) (c :: t.takeWhile q) := by
  refine ⟨[], t.dropWhile q, ?_, ?_, List.cons_ne_nil _ _, ?_, ?_⟩
  · rw [List.nil_append, List.cons_append, List.takeWhile_append_dropWhile]
  · intro d hd
    cases hd
  · intro d hd
    rcases List.mem_cons.1 hd with rfl | hd
    · exact hc
    · exact (hq d).1 (List.mem_takeWhile_imp hd)
  · intro d hd
    have hstop : q d = false := by
      have hhead := List.head?_dropWhile_not q t
      rw [hd] at hhead
      exact hhead
    by_contra hp
    exact absurd (hstop.symm.trans ((hq d).2 hp)) (by decide)

namespace CodePage

variable {page : CodePage} {t : Text}

theorem IsRegular.exists_decode_iff (h : page.IsRegular) {c : Char} :
    (∃ data, page.decode data = .ok [c]) ↔ (page.encodeChar c).isSome := by
  rw [Option.isSome_iff_exists]
  constructor
  · rintro ⟨data, hdata⟩
    obtain ⟨b, -, hb, -⟩ := List.forall₂_cons_right_iff.1 (h.decodeFrom_eq_ok_iff.1 hdata)
    exact ⟨b, h.encodeChar_eq_some_iff.2 hb⟩
  · rintro ⟨b, hb⟩
    exact ⟨[b], h.decodeFrom_eq_ok_iff.2 (.cons (h.encodeChar_eq_some_iff.1 hb) .nil)⟩

theorem isSome_of_encode {data : Bytes} (h : page.encode t = .ok data) :
    ∀ c ∈ t, (page.encodeChar c).isSome := by
  induction t generalizing data with
  | nil =>
    intro c hc
    cases hc
  | cons c t ih =>
    rw [encode] at h
    cases hc : page.encodeChar c with
    | none =>
      rw [hc] at h
      cases h
    | some b =>
      rw [hc] at h
      obtain ⟨data', hdata', -⟩ := exists_of_map_eq_ok h
      exact List.forall_mem_cons.2 ⟨by rw [hc]; rfl, ih hdata'⟩

theorem isFirstGap_of_encode {run : Text} (h : page.encode t = .error run) :
    IsFirstGap (fun c => (page.encodeChar c).isSome) t run := by
  induction t with
  | nil => cases h
  | cons c t ih =>
    rw [encode] at h
    cases hc : page.encodeChar c with
    | some b =>
      rw [hc] at h
      apply IsFirstGap.cons
      · rw [hc]
        rfl
      · apply ih
        cases hrest : page.encode t with
        | ok data =>
          rw [hrest] at h
          cases h
        | error run' =>
          rw [hrest] at h
          injection h with h
          rw [h]
    | none =>
      rw [hc] at h
      injection h with h
      subst h
      apply isFirstGap_takeWhile
      · simp
      · simp [hc]

end CodePage

namespace Charset

variable {charset : Charset} {t : Text}

/-- The character set has the character: some bytes are read as it. -/
def Holds (charset : Charset) (c : Char) : Prop := ∃ data, charset.decode data = .ok [c]

/-- What a character set must do to be of use: it reads what it writes, and writes what it can. -/
structure IsFaithful (charset : Charset) : Prop where
  decode_encode : ∀ {t data}, charset.encode t = .ok data → charset.decode data = .ok t
  holds : ∀ {t data}, charset.encode t = .ok data → ∀ c ∈ t, charset.Holds c
  isFirstGap : ∀ {t run}, charset.encode t = .error run → IsFirstGap charset.Holds t run

theorem isFaithful_of_codePage {page : CodePage} (h : page.IsRegular)
    (hdecode : charset.decode = page.decode) (hencode : charset.encode = page.encode) :
    charset.IsFaithful := by
  have hholds : charset.Holds = fun c => (page.encodeChar c).isSome = true := by
    funext c
    rw [Holds, hdecode, h.exists_decode_iff]
  constructor
  · intro t data hwrite
    rw [hencode] at hwrite
    rw [hdecode]
    exact h.encode_eq_ok_iff_decode.1 hwrite
  · intro t data hwrite
    rw [hencode] at hwrite
    rw [hholds]
    exact CodePage.isSome_of_encode hwrite
  · intro t run hwrite
    rw [hencode] at hwrite
    rw [hholds]
    exact CodePage.isFirstGap_of_encode hwrite

theorem isFaithful_of_total {write : Text → Bytes} (hencode : ∀ t, charset.encode t = .ok (write t))
    (hdecode : ∀ t, charset.decode (write t) = .ok t) : charset.IsFaithful := by
  constructor
  · intro t data hwrite
    rw [hencode] at hwrite
    injection hwrite with hwrite
    rw [← hwrite]
    exact hdecode t
  · intro t data _ c _
    exact ⟨write [c], hdecode [c]⟩
  · intro t run hwrite
    rw [hencode] at hwrite
    cases hwrite

theorem isFaithful (charset : Charset) : charset.IsFaithful := by
  cases charset with
  | utf8 => exact isFaithful_of_total (fun _ => rfl) fun t => Utf8.decodeFrom_encode t 0
  | utf16 => exact isFaithful_of_total (fun _ => rfl) Utf16.decode_encode
  | latin1 => exact isFaithful_of_codePage CodePage.isRegular_latin1 rfl rfl
  | windows1252 => exact isFaithful_of_codePage CodePage.isRegular_windows1252 rfl rfl
  | windows1256 => exact isFaithful_of_codePage CodePage.isRegular_windows1256 rfl rfl

theorem decode_nil (charset : Charset) : charset.decode [] = .ok [] := by
  cases charset <;> rfl

theorem ofName?_of_ofName {name : Text} (h : ofName name = .ok charset) :
    ofName? name = .ok (some charset) :=
  Registry.lookup_eq_ok_iff.1 h

end Charset

section Named

variable {name : Text} {charset : Charset} {t : Text}

theorem encodeText_eq (h : Charset.ofName name = .ok charset) (t : Text) :
    encodeText name t = (charset.encode t).mapError (.unencodable · name) := by
  simp only [encodeText, h, bind, Except.bind]
  cases charset.encode t <;> rfl

theorem decodeData_eq (h : Charset.ofName name = .ok charset) (data : Bytes) :
    decodeData name data = .ok (charset.decode data) := by
  rw [decodeData, Charset.ofName?_of_ofName h]
  cases data with
  | nil => rw [charset.decode_nil]; rfl
  | cons b data => rfl

theorem encodeText_eq_ok_iff (h : Charset.ofName name = .ok charset) {data : Bytes} :
    encodeText name t = .ok data ↔ charset.encode t = .ok data := by
  rw [encodeText_eq h]
  cases charset.encode t <;> simp [Except.mapError]

theorem encodeText_eq_error_iff (h : Charset.ofName name = .ok charset) {failure : Failure} :
    encodeText name t = .error failure ↔
      ∃ run, charset.encode t = .error run ∧ failure = .unencodable run name := by
  rw [encodeText_eq h]
  cases charset.encode t <;> simp [Except.mapError, eq_comm]

/-- What is written of a text is read as the text, without the marks before it. -/
theorem readText_of_encodeText (h : Charset.ofName name = .ok charset) {data : Bytes}
    (hwrite : encodeText name t = .ok data) :
    readText name data = .ok (t.dropWhile (· == byteOrderMark)) := by
  have hdecode := charset.isFaithful.decode_encode ((encodeText_eq_ok_iff h).1 hwrite)
  rw [readText, decodeData_eq h, hdecode]
  rfl

theorem dropWhile_eq_self (ht : t.head? ≠ some byteOrderMark) :
    t.dropWhile (· == byteOrderMark) = t := by
  cases t with
  | nil => rfl
  | cons c t =>
    rw [List.dropWhile_cons_of_neg]
    intro hc
    exact ht (congrArg some (eq_of_beq hc))

theorem isFirstGap_of_encodeText (h : Charset.ofName name = .ok charset) {failure : Failure}
    (hwrite : encodeText name t = .error failure) :
    ∃ run, failure = .unencodable run name ∧ IsFirstGap charset.Holds t run := by
  obtain ⟨run, hencode, rfl⟩ := (encodeText_eq_error_iff h).1 hwrite
  exact ⟨run, rfl, charset.isFaithful.isFirstGap hencode⟩

theorem exists_encodeText_eq_error_iff (h : Charset.ofName name = .ok charset) :
    (∃ run, encodeText name t = .error (.unencodable run name)) ↔ ∃ c ∈ t, ¬ charset.Holds c := by
  constructor
  · rintro ⟨run, hwrite⟩
    obtain ⟨missing, -, before, after, rfl, -, hne, hlacks, -⟩ :=
      isFirstGap_of_encodeText h hwrite
    obtain ⟨c, hc⟩ := List.exists_mem_of_ne_nil missing hne
    exact ⟨c, List.mem_append_left _ (List.mem_append_right _ hc), hlacks c hc⟩
  · rintro ⟨c, hc, hlacks⟩
    cases hwrite : encodeText name t with
    | ok data =>
      have hholds := charset.isFaithful.holds ((encodeText_eq_ok_iff h).1 hwrite)
      exact absurd (hholds c hc) hlacks
    | error failure =>
      obtain ⟨run, rfl, -⟩ := isFirstGap_of_encodeText h hwrite
      exact ⟨run, rfl⟩

end Named

/-- The names on the menu mean five character sets. Under each name of one of them, what is written
of a text is read as the same text, unless the text begins with a byte order mark. Writing never
fails in UTF-8 and UTF-16, and elsewhere just for characters that the character set lacks; the
failure tells the first of them. -/
theorem readText_encodeText :
    (Settings.supportedEncodings {}).map Charset.ofName =
        [.ok .utf8, .ok .windows1256, .ok .latin1, .ok .windows1252, .ok .utf16] ∧
      ∀ (name : Text) (charset : Charset), Charset.ofName name = .ok charset → ∀ t : Text,
        (t.head? ≠ some byteOrderMark →
          ∀ data, encodeText name t = .ok data → readText name data = .ok t) ∧
        (charset = .utf8 ∨ charset = .utf16 → ∃ data, encodeText name t = .ok data) ∧
        ((∃ run, encodeText name t = .error (.unencodable run name)) ↔
          ∃ c ∈ t, ¬ charset.Holds c) ∧
        ∀ failure, encodeText name t = .error failure →
          ∃ run, failure = .unencodable run name ∧ IsFirstGap charset.Holds t run := by
  refine ⟨by decide +kernel, fun name charset h t => ⟨?_, ?_, ?_, ?_⟩⟩
  · intro ht data hwrite
    rw [readText_of_encodeText h hwrite, dropWhile_eq_self ht]
  · rintro (rfl | rfl)
    · exact ⟨_, encodeText_eq h t⟩
    · exact ⟨_, encodeText_eq h t⟩
  · exact exists_encodeText_eq_error_iff h
  · intro failure
    exact isFirstGap_of_encodeText h

/-- A pair of surrogates is put together, a mark inside a text stays, and a code page tells which
characters it lacks. -/
theorem readText_encodeText_mixed :
    let score : Bytes := [0xFF, 0xFE, 0x34, 0xD8, 0x1E, 0xDD, 0xFF, 0xFE]
    let cat : Bytes := [0x90, 0xD1, 0xC8, 0xE5, 0x20, 0x80, 0x35]
    encodeText "utf-16".toList "𝄞\uFEFF".toList = .ok score ∧
      readText "utf-16".toList score = .ok "𝄞\uFEFF".toList ∧
      encodeText "windows-1256".toList "گربه €5".toList = .ok cat ∧
      readText "windows-1256".toList cat = .ok "گربه €5".toList ∧
      encodeText "iso-8859-1".toList "é€“5".toList =
        .error (.unencodable "€“".toList "iso-8859-1".toList) ∧
      ∃ c ∈ "é€“5".toList, ¬ Charset.latin1.Holds c := by
  intro score cat
  obtain ⟨-, hall⟩ := readText_encodeText
  have hutf16 : Charset.ofName "utf-16".toList = .ok .utf16 := by decide +kernel
  have harabic : Charset.ofName "windows-1256".toList = .ok .windows1256 := by decide +kernel
  have hlatin : Charset.ofName "iso-8859-1".toList = .ok .latin1 := by decide +kernel
  have hscore : encodeText "utf-16".toList "𝄞\uFEFF".toList = .ok score := by
    rw [encodeText_eq hutf16]
    decide +kernel
  have hcat : encodeText "windows-1256".toList "گربه €5".toList = .ok cat := by
    rw [encodeText_eq harabic]
    decide +kernel
  have hlacks : encodeText "iso-8859-1".toList "é€“5".toList =
      .error (.unencodable "€“".toList "iso-8859-1".toList) := by
    rw [encodeText_eq hlatin]
    decide +kernel
  obtain ⟨hreadScore, -⟩ := hall _ _ hutf16 "𝄞\uFEFF".toList
  obtain ⟨hreadCat, -⟩ := hall _ _ harabic "گربه €5".toList
  obtain ⟨-, -, hlack, -⟩ := hall _ _ hlatin "é€“5".toList
  refine ⟨hscore, hreadScore (by decide) score hscore, hcat, hreadCat (by decide) cat hcat,
    hlacks, hlack.1 ⟨_, hlacks⟩⟩

end CueCheck
