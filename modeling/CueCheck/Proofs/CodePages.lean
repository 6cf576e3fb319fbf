import CueCheck.Charset
import CueCheck.Proofs.Results
import Mathlib.Data.List.Forall2
import Mathlib.Data.List.Nodup
import Mathlib.Data.Option.Basic

/-!
Code pages as relations: reading and writing agree on which byte stands for which character.
-/

namespace CueCheck

theorem toNat_ofNat_byte {n : Nat} (hn : n < 0x100) : (UInt8.ofNat n).toNat = n :=
  UInt8.toNat_ofNat_of_lt' hn

/-- Below the surrogates each number is the code point of one character. -/
theorem ofNat_eq_iff {n : Nat} (hn : n < 0xD800) {c : Char} : Char.ofNat n = c ↔ c.toNat = n := by
  constructor
  · intro h
    have hvalid : n.isValidChar := .inl hn
    rw [← h, Char.ofNat, dif_pos hvalid]
    rfl
  · intro h
    rw [← h, Char.ofNat_toNat]

namespace CodePage

/-- The table gives each upper byte a code point of its own, above those of the lower bytes. -/
structure IsRegular (page : CodePage) : Prop where
  length_eq : page.upper.length = 0x80
  nodup : page.upper.Nodup
  bounds : ∀ n ∈ page.upper, 0x80 ≤ n ∧ n < 0xD800

theorem isRegular_latin1 : latin1.IsRegular where
  length_eq := rfl
  nodup := List.nodup_range'
  bounds n hn := by
    have hmem := List.mem_range'_1.1 hn
    omega

theorem isRegular_windows1252 : windows1252.IsRegular :=
  ⟨rfl, by decide +kernel, by decide +kernel⟩

theorem isRegular_windows1256 : windows1256.IsRegular :=
  ⟨rfl, by decide +kernel, by decide +kernel⟩

/-- The byte stands for the character: a lower byte for its own code point, an upper byte for that
at its place in the table. -/
def Stands (page : CodePage) (b : UInt8) (c : Char) : Prop :=
  b.toNat < 0x80 ∧ c.toNat = b.toNat ∨
    0x80 ≤ b.toNat ∧ b.toNat ∉ page.undefinedBytes ∧ page.upper[b.toNat - 0x80]? = some c.toNat

variable {page : CodePage} {b : UInt8} {c : Char}

theorem IsRegular.idxOf?_eq_some_iff (h : page.IsRegular) {n place : Nat} :
    page.upper.idxOf? n = some place ↔ page.upper[place]? = some n := by
  rw [List.idxOf?_eq_some_iff, List.getElem?_eq_some_iff]
  constructor
  · rintro ⟨hlt, heq, -⟩
    exact ⟨hlt, heq⟩
  · rintro ⟨hlt, heq⟩
    refine ⟨hlt, heq, fun j hj hj' => ?_⟩
    have hij := (List.Nodup.getElem_inj_iff h.nodup).1 (hj'.trans heq.symm)
    omega

theorem IsRegular.decodeByte_eq_some_iff (h : page.IsRegular) :
    page.decodeByte b = some c ↔ page.Stands b c := by
  rw [decodeByte, Stands]
  split
  · next hb =>
    have hlt : b.toNat < 0x80 := hb
    rw [Option.some.injEq, ofNat_eq_iff (by omega)]
    omega
  · next hb =>
    have hge : 0x80 ≤ b.toNat := Nat.not_lt.1 hb
    have hcode : page.upper[b.toNat - 0x80]?.map Char.ofNat = some c ↔
        page.upper[b.toNat - 0x80]? = some c.toNat := by
      constructor
      · intro hread
        obtain ⟨n, hn, hc⟩ := Option.map_eq_some_iff.1 hread
        have hbounds := h.bounds n (List.mem_of_getElem? hn)
        rw [hn, (ofNat_eq_iff hbounds.2).1 hc]
      · intro hread
        rw [hread, Option.map_some, Char.ofNat_toNat]
    by_cases hmem : b.toNat ∈ page.undefinedBytes
    · simp [hmem, Nat.not_lt.2 hge]
    · simp [hmem, hge, Nat.not_lt.2 hge, hcode]

theorem IsRegular.encodeChar_eq_some_iff (h : page.IsRegular) :
    page.encodeChar c = some b ↔ page.Stands b c := by
  rw [encodeChar, Stands]
  split
  · next hc =>
    rw [Option.some.injEq, ← UInt8.toNat_inj, toNat_ofNat_byte (by omega)]
    constructor
    · intro heq
      exact .inl ⟨by omega, heq⟩
    · rintro (⟨-, heq⟩ | ⟨-, -, hread⟩)
      · exact heq
      · have hbounds := h.bounds _ (List.mem_of_getElem? hread)
        omega
  · next hc =>
    simp only [Option.bind_eq_bind, Option.bind_eq_some_iff, h.idxOf?_eq_some_iff,
      Option.guard_eq_some']
    constructor
    · rintro ⟨place, hplace, -, hdefined, hb⟩
      obtain ⟨hlt, -⟩ := List.getElem?_eq_some_iff.1 hplace
      have hlen := h.length_eq
      have hb' : b.toNat = 0x80 + place := by
        injection hb with hb
        rw [← hb, toNat_ofNat_byte (by omega)]
      refine .inr ⟨by omega, ?_, ?_⟩
      · rw [hb']
        simpa using hdefined
      · rw [hb', Nat.add_sub_cancel_left]
        exact hplace
    · rintro (⟨hlt, heq⟩ | ⟨hge, hdefined, hread⟩)
      · omega
      · have hplace : 0x80 + (b.toNat - 0x80) = b.toNat := by omega
        refine ⟨_, hread, (), ?_, ?_⟩
        · rw [hplace]
          simpa using hdefined
        · rw [hplace, UInt8.ofNat_toNat]
          rfl

theorem IsRegular.decodeFrom_eq_ok_iff (h : page.IsRegular) {offset : Nat} {data : Bytes}
    {t : Text} : page.decodeFrom offset data = .ok t ↔ List.Forall₂ page.Stands data t := by
  induction data generalizing offset t with
  | nil =>
    rw [decodeFrom, List.forall₂_nil_left_iff, Except.ok.injEq]
    exact eq_comm
  | cons b data ih =>
    rw [decodeFrom, List.forall₂_cons_left_iff]
    constructor
    · intro hread
      cases hb : page.decodeByte b with
      | none =>
        rw [hb] at hread
        cases hread
      | some c =>
        rw [hb] at hread
        obtain ⟨t', ht', rfl⟩ := exists_of_map_eq_ok hread
        exact ⟨c, t', h.decodeByte_eq_some_iff.1 hb, ih.1 ht', rfl⟩
    · rintro ⟨c, t', hc, ht', rfl⟩
      simp only [h.decodeByte_eq_some_iff.2 hc, ih.2 ht']
      rfl

theorem IsRegular.encode_eq_ok_iff (h : page.IsRegular) {data : Bytes} {t : Text} :
    page.encode t = .ok data ↔ List.Forall₂ page.Stands data t := by
  induction t generalizing data with
  | nil =>
    rw [encode, List.forall₂_nil_right_iff, Except.ok.injEq]
    exact eq_comm
  | cons c t ih =>
    rw [encode, List.forall₂_cons_right_iff]
    constructor
    · intro hwrite
      cases hc : page.encodeChar c with
      | none =>
        rw [hc] at hwrite
        cases hwrite
      | some b =>
        rw [hc] at hwrite
        obtain ⟨data', hdata', rfl⟩ := exists_of_map_eq_ok hwrite
        exact ⟨b, data', h.encodeChar_eq_some_iff.1 hc, ih.1 hdata', rfl⟩
    · rintro ⟨b, data', hb, hdata', rfl⟩
      simp only [h.encodeChar_eq_some_iff.2 hb, ih.2 hdata']
      rfl

/-- Writing gives the bytes that are read as the text, or fails. -/
theorem IsRegular.encode_eq_ok_iff_decode (h : page.IsRegular) {data : Bytes} {t : Text} :
    page.encode t = .ok data ↔ page.decode data = .ok t :=
  h.encode_eq_ok_iff.trans h.decodeFrom_eq_ok_iff.symm

end CodePage

end CueCheck
