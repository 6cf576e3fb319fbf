import CueCheck.Charset
import CueCheck.Proofs.Results

/-!
Lengths of texts and of their bytes: a character takes one to four bytes in each encoding.
-/

namespace CueCheck

/-- The bytes of a text: one to four for each character. -/
def Fits (data : Bytes) (t : Text) : Prop := t.length ≤ data.length ∧ data.length ≤ 4 * t.length

theorem Fits.append {data : Bytes} {t : Text} (h : Fits data t) (start : Bytes) (c : Char)
    (hs : 1 ≤ start.length ∧ start.length ≤ 4) : Fits (start ++ data) (c :: t) := by
  obtain ⟨htext, hdata⟩ := h
  rw [Fits, List.length_append, List.length_cons]
  omega

/-- A decoder that reads one more character than another reads at least as far. -/
theorem fits_of_map_cons {rest : Except DecodeFault Text} {data : Bytes} {c : Char} {t : Text}
    (start : Bytes) (hs : 1 ≤ start.length ∧ start.length ≤ 4)
    (h : rest.map (c :: ·) = .ok t) (hrest : ∀ later, rest = .ok later → Fits data later) :
    Fits (start ++ data) t := by
  obtain ⟨later, hlater, rfl⟩ := exists_of_map_eq_ok h
  exact (hrest later hlater).append start c hs

theorem fits_nil {t : Text} (h : (.ok [] : Except DecodeFault Text) = .ok t) : Fits [] t := by
  injection h with h
  rw [← h]
  exact ⟨Nat.le_refl _, Nat.zero_le _⟩

theorem Utf8.fits_of_decodeFrom {offset : Nat} {data : Bytes} {t : Text}
    (h : decodeFrom offset data = .ok t) : Fits data t := by
  fun_induction decodeFrom offset data generalizing t with
  | case1 => exact fits_nil h
  | case2 offset a rest _ ih => exact fits_of_map_cons [a] (by simp) h fun _ => ih
  | case3 => cases h
  | case4 => cases h
  | case5 => cases h
  | case6 offset a _ _ b rest _ _ ih =>
    exact fits_of_map_cons [a, b] (by simp) h fun _ => ih
  | case7 => cases h
  | case8 => cases h
  | case9 offset a _ _ b _ _ c rest _ _ ih =>
    exact fits_of_map_cons [a, b, c] (by simp) h fun _ => ih
  | case10 => cases h
  | case11 => cases h
  | case12 offset a _ _ b _ _ c _ _ d rest _ ih =>
    exact fits_of_map_cons [a, b, c, d] (by simp) h fun _ => ih

theorem Utf16.fits_of_decodeFrom {order : ByteOrder} {offset : Nat} {data : Bytes} {t : Text}
    (h : decodeFrom order offset data = .ok t) : Fits data t := by
  fun_induction decodeFrom order offset data generalizing t with
  | case1 => exact fits_nil h
  | case2 => cases h
  | case3 =>
    rename_i a b _ _ c d _ _ _ ih
    exact fits_of_map_cons [a, b, c, d] (by simp) h fun _ => ih
  | case4 => cases h
  | case5 => cases h
  | case6 => cases h
  | case7 =>
    rename_i a b _ _ _ _ ih
    exact fits_of_map_cons [a, b] (by simp) h fun _ => ih

theorem CodePage.fits_of_decodeFrom {page : CodePage} {offset : Nat} {data : Bytes} {t : Text}
    (h : page.decodeFrom offset data = .ok t) : Fits data t := by
  fun_induction decodeFrom page offset data generalizing t with
  | case1 => exact fits_nil h
  | case2 offset b rest c _ ih =>
    exact fits_of_map_cons [b] (by simp) h fun _ => ih
  | case3 => cases h

/-- A text has one to four bytes a character in each encoding, and may have a mark of two. -/
theorem Charset.length_of_decode {charset : Charset} {data : Bytes} {t : Text}
    (h : charset.decode data = .ok t) :
    t.length ≤ data.length ∧ data.length ≤ 4 * t.length + 2 := by
  have hfits {rest : Bytes} (hrest : Fits rest t) (mark : Bytes) (hm : mark.length ≤ 2) :
      t.length ≤ (mark ++ rest).length ∧ (mark ++ rest).length ≤ 4 * t.length + 2 := by
    obtain ⟨htext, hdata⟩ := hrest
    rw [List.length_append]
    omega
  cases charset with
  | utf8 => exact hfits (Utf8.fits_of_decodeFrom h) [] (by simp)
  | utf16 =>
    rw [decode, Utf16.decode.eq_def] at h
    split at h
    · exact hfits (Utf16.fits_of_decodeFrom h) [0xFF, 0xFE] (by simp)
    · exact hfits (Utf16.fits_of_decodeFrom h) [0xFE, 0xFF] (by simp)
    · exact hfits (Utf16.fits_of_decodeFrom h) [] (by simp)
  | latin1 => exact hfits (CodePage.fits_of_decodeFrom h) [] (by simp)
  | windows1252 => exact hfits (CodePage.fits_of_decodeFrom h) [] (by simp)
  | windows1256 => exact hfits (CodePage.fits_of_decodeFrom h) [] (by simp)

theorem length_of_decodeData {encoding : Text} {data : Bytes} {t : Text}
    (h : decodeData encoding data = .ok (.ok t)) :
    t.length ≤ data.length ∧ data.length ≤ 4 * t.length + 2 := by
  rw [decodeData] at h
  obtain ⟨charset?, -, h⟩ := exists_of_bind_eq_ok h
  split at h
  · injection h with h
    injection h with h
    rw [← h]
    exact ⟨Nat.le_refl _, Nat.zero_le _⟩
  · injection h with h
    exact Charset.length_of_decode h
  · cases h

/-- A text that is read is part of the decoded data, without the marks before it. -/
theorem exists_of_readText {encoding : Text} {data : Bytes} {t : Text}
    (h : readText encoding data = .ok t) :
    ∃ decoded, decodeData encoding data = .ok (.ok decoded) ∧ t.length ≤ decoded.length := by
  rw [readText] at h
  obtain ⟨result, hresult, h⟩ := exists_of_bind_eq_ok h
  cases result with
  | error fault => cases h
  | ok decoded =>
    injection h with h
    rw [← h]
    exact ⟨decoded, hresult, (List.dropWhile_sublist _).length_le⟩

theorem Utf8.length_encodeChar_le (c : Char) : (encodeChar c).length ≤ 4 := by
  simp only [encodeChar]
  split
  · simp
  · split
    · simp
    · split <;> simp

theorem Utf8.length_encode_le (t : Text) : (encode t).length ≤ 4 * t.length := by
  induction t with
  | nil => exact Nat.le_refl _
  | cons c t ih =>
    have hc := length_encodeChar_le c
    rw [encode] at ih ⊢
    rw [List.flatMap_cons, List.length_append, List.length_cons]
    omega

end CueCheck
