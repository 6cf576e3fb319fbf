import CueCheck.Proofs.EncodingRoundTrip
import CueCheck.Proofs.HeaderCharacters

/-!
The name of a download read off the header that offers it: the header is read as a quoted form and an
encoded form of the name, and the encoded form is decoded to the name as it was.
-/

namespace CueCheck

theorem Text.Hex.fixed_two (digits : Text) (n : Nat) :
    fixed digits 2 n = [digits.getD (n / 16 % 16) '0', digits.getD (n % 16) '0'] := rfl

theorem Text.Hex.getD_capitalDigits_mem {n : Nat} (h : n < 16) :
    capitalDigits.getD n '0' ∈ capitalDigits := by
  have hall : ∀ k : Fin 16, capitalDigits.getD k '0' ∈ capitalDigits := by decide
  exact hall ⟨n, h⟩

/-- A character that is not in ASCII is encoded without bytes of ASCII. -/
theorem Utf8.le_of_mem_encodeChar {c : Char} {b : UInt8} (hc : 0x80 ≤ c.toNat)
    (h : b ∈ encodeChar c) : 0x80 ≤ b.toNat := by
  have hvalid : c.toNat < 0xD800 ∨ 0xDFFF < c.toNat ∧ c.toNat < 0x110000 := c.valid
  have hbyte {n : Nat} (hlow : 0x80 ≤ n) (hhigh : n < 0x100) : 0x80 ≤ (UInt8.ofNat n).toNat := by
    rw [toNat_ofNat_byte hhigh]
    exact hlow
  rw [encodeChar, if_neg (by omega)] at h
  split at h
  · simp only [List.mem_cons, List.not_mem_nil, or_false] at h
    rcases h with rfl | rfl <;> exact hbyte (by omega) (by omega)
  split at h
  · simp only [List.mem_cons, List.not_mem_nil, or_false] at h
    rcases h with rfl | rfl | rfl <;> exact hbyte (by omega) (by omega)
  · simp only [List.mem_cons, List.not_mem_nil, or_false] at h
    rcases h with rfl | rfl | rfl | rfl <;> exact hbyte (by omega) (by omega)

/-- A byte of ASCII encodes the character that it is. -/
theorem Utf8.toNat_eq_of_mem_encodeChar {c : Char} {b : UInt8} (hb : b.toNat < 0x80)
    (h : b ∈ encodeChar c) : b.toNat = c.toNat := by
  by_cases hc : c.toNat < 0x80
  · rw [encodeChar, if_pos hc] at h
    rw [List.mem_singleton.1 h, toNat_ofNat_byte (by omega)]
  · have hle := le_of_mem_encodeChar (by omega) h
    omega

namespace Download

/-- The characters that stand for themselves in a percent-encoded name. -/
def isPlainChar (c : Char) : Bool := c.isAlphanum || ['_', '.', '-', '~', '/'].contains c

/-- A percent-encoded text: plain characters, and bytes as a percent sign and two capital hexadecimal
digits. -/
inductive IsPercentEncoded : Text → Prop where
  | nil : IsPercentEncoded []
  | plain {c : Char} {t : Text} (hc : isPlainChar c = true) (ht : IsPercentEncoded t) :
      IsPercentEncoded (c :: t)
  | escape {high low : Char} {t : Text} (hhigh : high ∈ Text.Hex.capitalDigits)
      (hlow : low ∈ Text.Hex.capitalDigits) (ht : IsPercentEncoded t) :
      IsPercentEncoded ('%' :: high :: low :: t)

/-- The bytes that a percent-encoded text stands for: one byte for a percent sign and the two
hexadecimal digits after it, and one for every other character of ASCII. -/
def percentDecode? : Text → Option Bytes
  | [] => some []
  | c :: t =>
    if c = '%' then
      match t with
      | high :: low :: t => do
        let h ← Text.Hex.value? high
        let l ← Text.Hex.value? low
        return UInt8.ofNat (16 * h + l) :: (← percentDecode? t)
      | _ => none
    else if c.toNat < 0x80 then (percentDecode? t).map (UInt8.ofNat c.toNat :: ·)
    else none

/-- The inside of a quoted string, in which a backslash takes the meaning from the character after
it, and what follows the closing quotation mark. -/
def readQuoted? : Text → Option (Text × Text)
  | [] => none
  | c :: t =>
    if c = '"' then some ([], t)
    else if c = '\\' then
      match t with
      | [] => none
      | d :: t => (readQuoted? t).map fun (inside, rest) => (d :: inside, rest)
    else (readQuoted? t).map fun (inside, rest) => (c :: inside, rest)

/-- The quoted form and the encoded form of the name in a header that offers a file. -/
def nameForms? (header : Text) : Option (Text × Text) := do
  let t ← Text.after? "attachment; filename=\"".toList header
  let (fallback, t) ← readQuoted? t
  let encoded ← Text.after? "; filename*=UTF-8''".toList t
  return (fallback, encoded)

variable {t : Text}

theorem isPlainByte_eq (b : UInt8) : isPlainByte b = isPlainChar (Char.ofNat b.toNat) := by
  have hall : ∀ n : Fin 256, isPlainByte (UInt8.ofNat n) = isPlainChar (Char.ofNat n) := by
    decide +kernel
  have hb := hall ⟨b.toNat, b.toNat_lt⟩
  rwa [UInt8.ofNat_toNat] at hb

theorem percentByte_of_not_plain {b : UInt8} (h : ¬ isPlainByte b = true) :
    percentByte b = ['%', Text.Hex.capitalDigits.getD (b.toNat / 16 % 16) '0',
      Text.Hex.capitalDigits.getD (b.toNat % 16) '0'] := by
  rw [percentByte, if_neg h, Text.Hex.fixed_two]

theorem isPercentEncoded_percentByte_append (b : UInt8) (ht : IsPercentEncoded t) :
    IsPercentEncoded (percentByte b ++ t) := by
  by_cases hplain : isPlainByte b = true
  · rw [percentByte, if_pos hplain]
    exact .plain ((isPlainByte_eq b).symm.trans hplain) ht
  · rw [percentByte_of_not_plain hplain]
    exact .escape (Text.Hex.getD_capitalDigits_mem (Nat.mod_lt _ (by decide)))
      (Text.Hex.getD_capitalDigits_mem (Nat.mod_lt _ (by decide))) ht

theorem isPercentEncoded_percentEncode (t : Text) : IsPercentEncoded (percentEncode t) := by
  rw [percentEncode]
  induction Utf8.encode t with
  | nil => exact .nil
  | cons b data ih => exact isPercentEncoded_percentByte_append b ih

/-- A percent-encoded byte is read as that byte, whatever follows it. -/
theorem percentDecode?_percentByte_append (b : UInt8) (t : Text) :
    percentDecode? (percentByte b ++ t) = (percentDecode? t).map (b :: ·) := by
  by_cases hplain : isPlainByte b = true
  · obtain ⟨hlow, hhigh⟩ := isPlainByte_bounds hplain
    have hcode : (Char.ofNat b.toNat).toNat = b.toNat := (ofNat_eq_iff (by omega)).1 rfl
    have hpercent : Char.ofNat b.toNat ≠ '%' := by
      intro h
      have hcode' := (ofNat_eq_iff (by omega)).1 h
      rw [show '%'.toNat = 0x25 from rfl] at hcode'
      omega
    rw [percentByte, if_pos hplain, List.singleton_append, percentDecode?.eq_def]
    simp only [if_neg hpercent, hcode, if_pos (show b.toNat < 0x80 by omega), UInt8.ofNat_toNat]
  · have hhigh := Text.Hex.value?_capitalDigits (b.toNat / 16 % 16) (Nat.mod_lt _ (by decide))
    have hlow := Text.Hex.value?_capitalDigits (b.toNat % 16) (Nat.mod_lt _ (by decide))
    have hlt := b.toNat_lt
    have hbyte : 16 * (b.toNat / 16 % 16) + b.toNat % 16 = b.toNat := by omega
    rw [percentByte_of_not_plain hplain]
    simp only [List.cons_append, List.nil_append, percentDecode?, if_pos, hhigh, hlow,
      Option.bind_eq_bind, Option.bind_some, hbyte, UInt8.ofNat_toNat]
    cases percentDecode? t <;> rfl

theorem percentDecode?_percentEncode (t : Text) :
    percentDecode? (percentEncode t) = some (Utf8.encode t) := by
  rw [percentEncode]
  induction Utf8.encode t with
  | nil => rfl
  | cons b data ih => rw [List.flatMap_cons, percentDecode?_percentByte_append, ih]; rfl

theorem asciiFallback_safe (c : Char) :
    (asciiFallback c).toNat < 0x80 ∧ asciiFallback c ≠ '"' ∧ asciiFallback c ≠ '\\' := by
  rw [asciiFallback]
  split
  · decide
  · next hascii =>
    split
    · decide
    · next hquote =>
      simp only [Bool.or_eq_true, decide_eq_true_eq, not_or] at hquote
      exact ⟨by omega, hquote⟩

/-- Without quotation marks and backslashes a text is quoted as it is. -/
theorem readQuoted?_append (h : ∀ c ∈ t, c ≠ '"' ∧ c ≠ '\\') (rest : Text) :
    readQuoted? (t ++ '"' :: rest) = some (t, rest) := by
  induction t with
  | nil => rw [List.nil_append, readQuoted?.eq_def]; rfl
  | cons c t ih =>
    obtain ⟨hc, ht⟩ := List.forall_mem_cons.1 h
    rw [List.cons_append, readQuoted?.eq_def]
    simp only [if_neg hc.1, if_neg hc.2, ih ht]
    rfl

theorem eq_of_slash_mem_percentByte {b : UInt8} (h : '/' ∈ percentByte b) : b.toNat = 0x2F := by
  rw [percentByte] at h
  split at h
  · next hplain =>
    have hb := isPlainByte_bounds hplain
    exact ((ofNat_eq_iff (by omega)).1 (List.mem_singleton.1 h).symm).symm
  · rcases List.mem_cons.1 h with h | h
    · cases h
    · exact absurd (Text.Hex.fixed_subset h) (by decide)

/-- A slash in a percent-encoded name is one of the name. -/
theorem slash_mem_of_percentEncode (h : '/' ∈ percentEncode t) : '/' ∈ t := by
  obtain ⟨b, hb, hslash⟩ := List.mem_flatMap.1 h
  obtain ⟨c, hc, hmem⟩ := List.mem_flatMap.1 hb
  have hcode := eq_of_slash_mem_percentByte hslash
  have heq := Utf8.toNat_eq_of_mem_encodeChar (by omega) hmem
  have hchar : c = '/' := Char.toNat_inj.1 (heq.symm.trans hcode)
  rwa [← hchar]

theorem slash_not_mem_of_pathParts {path part : Text} (h : part ∈ pathParts path) :
    '/' ∉ part := by
  induction path generalizing part with
  | nil =>
    rw [List.mem_singleton.1 h]
    exact List.not_mem_nil
  | cons c path ih =>
    rw [pathParts] at h
    split at h
    · rcases List.mem_cons.1 h with rfl | h
      · exact List.not_mem_nil
      · exact ih h
    · next hc =>
      have hcons : ∀ {t : Text}, '/' ∉ t → '/' ∉ c :: t := fun ht hmem =>
        (List.mem_cons.1 hmem).elim (fun he => hc he.symm) ht
      cases hparts : pathParts path with
      | nil =>
        rw [hparts, Text.consLine, List.mem_singleton] at h
        rw [h]
        exact hcons List.not_mem_nil
      | cons first parts =>
        rw [hparts] at h ih
        rw [Text.consLine] at h
        rcases List.mem_cons.1 h with rfl | h
        · exact hcons (ih List.mem_cons_self)
        · exact ih (List.mem_cons_of_mem _ h)

theorem slash_not_mem_baseName (path : Text) : '/' ∉ baseName path := by
  rw [baseName]
  cases hlast : ((pathParts path).filter fun part => !part.isEmpty && part != ['.']).getLast? with
  | none => exact List.not_mem_nil
  | some part =>
    exact slash_not_mem_of_pathParts (List.mem_of_mem_filter (List.mem_of_getLast? hlast))

theorem slash_not_mem_fixedName (filename : Option Text) : '/' ∉ fixedName filename := by
  have hforeign : IsForeign (· == '/') := ⟨by decide, by decide, by decide⟩
  have hbase : (baseName (filename.getD [])).filter (· == '/') = [] := by
    rw [List.filter_eq_nil_iff]
    intro c hc hslash
    rw [beq_iff_eq.1 hslash] at hc
    exact slash_not_mem_baseName _ hc
  have hname := (hforeign.filter_fixedName filename).trans hbase
  intro hmem
  exact List.filter_eq_nil_iff.1 hname '/' hmem rfl

theorem nameForms?_append {fallback encoded : Text} (h : ∀ c ∈ fallback, c ≠ '"' ∧ c ≠ '\\') :
    nameForms? ("attachment; filename=\"".toList ++ fallback ++ "\"; filename*=UTF-8''".toList ++
      encoded) = some (fallback, encoded) := by
  have hmiddle : "\"; filename*=UTF-8''".toList = '"' :: "; filename*=UTF-8''".toList := by
    decide
  rw [hmiddle, List.append_assoc, List.append_assoc, List.cons_append, nameForms?,
    Text.after?_append]
  simp only [Option.bind_eq_bind, Option.bind_some, readQuoted?_append h, Text.after?_append]
  rfl

/-- The header that offers a file is read as a quoted form and an encoded form of its name, just the
two that it was put together from. The quoted form has a safe character of ASCII for each character
of the name, and the encoded form, of plain characters and percent-encoded bytes, is decoded to the
name as it was. -/
theorem contentDisposition_recoverable (filename : Text) :
    ∃ fallback encoded,
      contentDisposition filename =
        "attachment; filename=\"".toList ++ fallback ++ "\"; filename*=UTF-8''".toList ++ encoded ∧
      nameForms? (contentDisposition filename) = some (fallback, encoded) ∧
      fallback.length = filename.length ∧
      (∀ c ∈ fallback, c.toNat < 0x80 ∧ c ≠ '"' ∧ c ≠ '\\') ∧
      IsPercentEncoded encoded ∧
      (∃ data, percentDecode? encoded = some data ∧ Utf8.decode data = .ok filename) ∧
      ∀ given, filename = fixedName given → '/' ∉ encoded := by
  have hsafe : ∀ c ∈ filename.map asciiFallback, c.toNat < 0x80 ∧ c ≠ '"' ∧ c ≠ '\\' := by
    rw [List.forall_mem_map]
    exact fun c _ => asciiFallback_safe c
  refine ⟨filename.map asciiFallback, percentEncode filename, rfl,
    nameForms?_append fun c hc => (hsafe c hc).2, List.length_map _, hsafe,
    isPercentEncoded_percentEncode filename,
    ⟨_, percentDecode?_percentEncode filename, Utf8.decodeFrom_encode filename 0⟩, ?_⟩
  rintro given rfl hslash
  exact slash_not_mem_fixedName given (slash_mem_of_percentEncode hslash)

/-- A name with a quotation mark, a percent sign, and characters of two and of four bytes. -/
theorem contentDisposition_recoverable_mixed :
    let filename := fixedName (some "in/a\"é😀%.srt".toList)
    let encoded := "a%22%C3%A9%F0%9F%98%80%25_fixed.srt".toList
    filename = "a\"é😀%_fixed.srt".toList ∧
      nameForms? (contentDisposition filename) = some ("a_??%_fixed.srt".toList, encoded) ∧
      (∃ data, percentDecode? encoded = some data ∧ Utf8.decode data = .ok filename) ∧
      '/' ∉ encoded := by
  intro filename encoded
  have hname : filename = "a\"é😀%_fixed.srt".toList := by decide +kernel
  have hforms : nameForms? (contentDisposition filename) =
      some ("a_??%_fixed.srt".toList, encoded) := by decide +kernel
  obtain ⟨fallback, same, -, hsame, -, -, -, hdecoded, hslash⟩ :=
    contentDisposition_recoverable filename
  rw [hforms] at hsame
  injection hsame with hsame
  injection hsame with _ hsame
  rw [← hsame] at hdecoded hslash
  exact ⟨hname, hforms, hdecoded, hslash _ rfl⟩

end Download

end CueCheck
