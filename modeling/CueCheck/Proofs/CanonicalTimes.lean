import CueCheck.Proofs.WrittenTimes

/-!
Timestamps in canonical form: every offset from the start is written as one of them, and every one of
them is read as the offset that is written as it.
-/

namespace CueCheck

namespace Numeral

theorem eq_of_digitValue_eq {c d : Char} (hc : isDigit c = true) (hd : isDigit d = true)
    (h : digitValue c = digitValue d) : c = d := by
  rw [isDigit_iff] at hc hd
  rw [digitValue, digitValue] at h
  apply Char.toNat_inj.1
  simp at h
  omega

/-- Runs of digits of one length are told apart by their values. -/
theorem eq_of_value_eq {ds es : Text} (hds : ∀ c ∈ ds, isDigit c = true)
    (hes : ∀ c ∈ es, isDigit c = true) (hlen : ds.length = es.length)
    (h : value ds = value es) : ds = es := by
  induction ds using List.reverseRecOn generalizing es with
  | nil => exact (List.length_eq_zero_iff.1 hlen.symm).symm
  | append_singleton ds c ih =>
    rcases List.eq_nil_or_concat es with rfl | ⟨es, d, rfl⟩
    · simp at hlen
    · rw [List.concat_eq_append] at hes hlen h ⊢
      have hc := hds c (by simp)
      have hd := hes d (by simp)
      have hcle := digitValue_le hc
      have hdle := digitValue_le hd
      rw [value_append_singleton, value_append_singleton] at h
      have hlast : c = d := eq_of_digitValue_eq hc hd (by omega)
      have hfront : ds = es := ih (fun b hb => hds b (List.mem_append_left _ hb))
        (fun b hb => hes b (List.mem_append_left _ hb)) (by simpa using hlen) (by omega)
      rw [hlast, hfront]

theorem digits_digitValue {c : Char} (h : isDigit c = true) : digits (digitValue c) = [c] := by
  have hle := digitValue_le h
  have hlen : (digits (digitValue c)).length = 1 :=
    Nat.le_antisymm ((length_digits_le_iff (by decide)).2 (by omega))
      (List.length_pos_iff.2 (digits_ne_nil _))
  have hc : ∀ d ∈ [c], isDigit d = true := List.forall_mem_singleton.2 h
  refine eq_of_value_eq (fun d => isDigit_of_mem_digits) hc hlen ?_
  rw [value_digits]
  simp [value]

/-- Without a zero in front, a run of digits is the decimal form of its value. -/
theorem digits_value {ds : Text} (hds : ∀ c ∈ ds, isDigit c = true) (hne : ds ≠ [])
    (hfront : ds.head? ≠ some '0') : digits (value ds) = ds := by
  induction ds using List.reverseRecOn with
  | nil => exact absurd rfl hne
  | append_singleton ds c ih =>
    have hc := hds c (by simp)
    have hcle := digitValue_le hc
    rw [value_append_singleton]
    by_cases hnil : ds = []
    · rw [hnil]
      simpa using digits_digitValue hc
    · rw [List.head?_append_of_ne_nil _ hnil] at hfront
      have hds' := ih (fun d hd => hds d (List.mem_append_left _ hd)) hnil hfront
      -- Zero is written as a single zero, so a front of value zero would start with it.
      have hpos : value ds ≠ 0 := by
        intro hzero
        rw [hzero] at hds'
        exact hfront (by rw [← hds']; rfl)
      have hdiv : (10 * value ds + digitValue c) / 10 = value ds := by omega
      have hmod : (10 * value ds + digitValue c) % 10 = digitValue c := by omega
      rw [digits_eq_append (by omega), hdiv, hmod, hds', digits_digitValue hc]

theorem head?_digits_ne {n : Nat} (h : 0 < n) : (digits n).head? ≠ some '0' := by
  induction n using Nat.strong_induction_on with
  | _ n ih =>
    by_cases hn : n < 10
    · have hall : ∀ k : Fin 10, 0 < k.val → (digits k).head? ≠ some '0' := by decide
      exact hall ⟨n, hn⟩ h
    · rw [digits_eq_append (by omega), List.head?_append_of_ne_nil _ (digits_ne_nil _)]
      exact ih (n / 10) (by omega) (by omega)

end Numeral

namespace Clock

/-- A clock whose fields do not overflow into each other is that of its offset. -/
theorem ofMillis_total {c : Clock} (hm : c.minutes < 60) (hs : c.seconds < 60)
    (hms : c.millis < 1000) : ofMillis c.total = c := by
  obtain ⟨h, m, s, ms⟩ := c
  simp only at hm hs hms
  simp only [ofMillis, total, Clock.mk.injEq]
  omega

end Clock

namespace Timestamp

open Numeral

theorem IsField.padded_value {width : Nat} {ds : Text} (h : IsField width ds)
    (hwidth : 0 < width) : padded width (value ds) = ds := by
  have hlen := length_padded_of_lt hwidth h.value_lt
  exact eq_of_value_eq (fun c => isDigit_of_mem_padded) h.digits (hlen.trans h.length.symm)
    (value_padded _ _)

/-- Hours as they are written: two digits, or more of them without a zero in front. -/
structure IsHours (ds : Text) : Prop where
  digits : ∀ c ∈ ds, isDigit c = true
  two_le : 2 ≤ ds.length
  unpadded : 2 < ds.length → ds.head? ≠ some '0'

/-- Two digits for a number below sixty. -/
structure IsSixtieth (ds : Text) : Prop extends IsField 2 ds where
  lt : value ds < 60

/-- A timestamp in canonical form with given hours. -/
inductive Canonical (hours : Text) : Text → Prop where
  | fields {minutes seconds millis : Text} (hh : IsHours hours) (hm : IsSixtieth minutes)
      (hs : IsSixtieth seconds) (hms : IsField 3 millis) :
      Canonical hours (hours ++ ':' :: minutes ++ ':' :: seconds ++ ',' :: millis)

theorem IsHours.padded_value {ds : Text} (h : IsHours ds) : padded 2 (value ds) = ds := by
  by_cases hlen : ds.length = 2
  · exact IsField.padded_value ⟨hlen, h.digits⟩ (by decide)
  · have htwo := h.two_le
    have hne : ds ≠ [] := List.length_pos_iff.1 (by omega)
    have hds := digits_value h.digits hne (h.unpadded (by omega))
    rw [padded_of_le_length (by rw [hds]; exact htwo), hds]

theorem isHours_padded (n : Nat) : IsHours (padded 2 n) where
  digits _ := isDigit_of_mem_padded
  two_le := by
    rw [length_padded]
    exact Nat.le_max_left _ _
  unpadded h := by
    have hlen : 2 < (Numeral.digits n).length := by
      rw [length_padded] at h
      omega
    have hpos : 0 < n := by
      by_contra hzero
      have hle : (Numeral.digits n).length ≤ 2 := (length_digits_le_iff (by decide)).2 (by omega)
      omega
    rw [padded_of_le_length (Nat.le_of_lt hlen)]
    exact head?_digits_ne hpos

theorem isSixtieth_padded {n : Nat} (h : n < 60) : IsSixtieth (padded 2 n) :=
  ⟨isField_padded (by decide) (by omega), by rwa [value_padded]⟩

theorem canonical_text {c : Clock} (hm : c.minutes < 60) (hs : c.seconds < 60)
    (hms : c.millis < 1000) : Canonical (padded 2 c.hours) c.text :=
  .fields (isHours_padded c.hours) (isSixtieth_padded hm) (isSixtieth_padded hs)
    (isField_padded (by decide) hms)

theorem canonical_format (ms : Int) :
    Canonical (padded 2 (Clock.ofMillis ms.toNat).hours) (format ms) := by
  apply canonical_text
  · exact Nat.mod_lt _ (by decide)
  · exact Nat.mod_lt _ (by decide)
  · exact Nat.mod_lt _ (by decide)

/-- A canonical timestamp is read as an offset that is written as it. -/
theorem Canonical.exists_parse_eq {hours t : Text} (h : Canonical hours t)
    (hmax : hours.length ≤ maxNumeralDigits) : ∃ n : Nat, parse t = .ok n ∧ format n = t := by
  cases h with
  | @fields minutes seconds millis hh hm hs hms =>
    have hread := wide?_append hh.digits hh.two_le hm.toIsField hs.toIsField hms []
    simp only [List.append_nil] at hread
    have hparse := parse_of_wide? hread hmax
    simp only [List.append_assoc, List.cons_append]
    refine ⟨_, hparse, ?_⟩
    rw [format, Int.toNat_natCast, Clock.ofMillis_total hm.lt hs.lt hms.value_lt, Clock.text,
      hh.padded_value, hm.toIsField.padded_value (by decide), hs.toIsField.padded_value (by decide),
      hms.padded_value (by decide)]
    simp only [List.append_assoc, List.cons_append]

theorem Canonical.length_eq {hours t : Text} (h : Canonical hours t) :
    t.length = hours.length + 10 := by
  cases h with
  | fields hh hm hs hms =>
    simp only [List.length_append, List.length_cons, hm.length, hs.length, hms.length]

theorem length_format_eq_iff (ms : Int) : (format ms).length = 12 ↔ ms < 360000000 := by
  have hwidth : (Numeral.digits (ms.toNat / 3600000)).length ≤ 2 ↔ ms.toNat / 3600000 < 10 ^ 2 :=
    length_digits_le_iff (by decide)
  rw [(canonical_format ms).length_eq, length_padded]
  simp only [Clock.ofMillis]
  omega

theorem format_max (ms : Int) : format (max ms 0) = format ms := by
  rw [format, format, show (max ms 0).toNat = ms.toNat by omega]

/-- Writing and reading take offsets from the start to canonical timestamps and back. An offset is
written in canonical form, in twelve characters if it lies below a hundred hours, and is read as
itself, or as zero if it lies before the start; a canonical timestamp is read as an offset that is
written as it. All this while the hours have no more digits than a numeral may have. -/
theorem parse_format_canonical :
    (∀ ms : Int, (Numeral.digits (Clock.ofMillis ms.toNat).hours).length ≤ maxNumeralDigits →
      (parse (format ms)).map Int.ofNat = .ok (max ms 0) ∧
      (∃ hours, Canonical hours (format (max ms 0))) ∧
      ((format (max ms 0)).length = 12 ↔ ms < 360000000)) ∧
    ∀ hours t, Canonical hours t → hours.length ≤ maxNumeralDigits →
      ∃ n : Nat, parse t = .ok n ∧ format n = t := by
  refine ⟨fun ms hdigits => ⟨?_, ?_, ?_⟩, fun hours t => Canonical.exists_parse_eq⟩
  · have hlen : (padded 2 (ms.toNat / 3600000)).length ≤ maxNumeralDigits := by
      rw [length_padded]
      exact Nat.max_le.2 ⟨by decide, hdigits⟩
    rw [parse_format hlen, Except.map]
    exact congrArg Except.ok (Int.toNat_eq_max ms)
  · rw [format_max]
    exact ⟨_, canonical_format ms⟩
  · rw [format_max]
    exact length_format_eq_iff ms

/-- Five digits of hours. -/
theorem parse_format_canonical_wide :
    let ms : Int := 44442367089
    let t := "12345:06:07,089".toList
    (Numeral.digits (Clock.ofMillis ms.toNat).hours).length ≤ maxNumeralDigits ∧
      (parse (format ms)).map Int.ofNat = .ok ms ∧ (format ms).length ≠ 12 ∧
      Canonical "12345".toList t ∧ ∃ n : Nat, parse t = .ok n ∧ format n = t := by
  intro ms t
  have hdigits : (Numeral.digits (Clock.ofMillis ms.toNat).hours).length ≤ maxNumeralDigits := by
    decide
  have hdigit {ds : Text} (h : ds.all isDigit = true) : ∀ c ∈ ds, isDigit c = true :=
    List.all_eq_true.1 h
  have hcanonical : Canonical "12345".toList t :=
    @Canonical.fields _ "06".toList "07".toList "089".toList
      ⟨hdigit rfl, by decide, fun _ => by decide⟩ ⟨⟨rfl, hdigit rfl⟩, by decide⟩
      ⟨⟨rfl, hdigit rfl⟩, by decide⟩ ⟨rfl, hdigit rfl⟩
  obtain ⟨hread, -, hlength⟩ := parse_format_canonical.1 ms hdigits
  have hwritten := parse_format_canonical.2 _ t hcanonical (by decide)
  exact ⟨hdigits, hread, fun h => absurd (hlength.1 h) (by decide), hcanonical, hwritten⟩

end Timestamp

end CueCheck
