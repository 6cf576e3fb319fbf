import CueCheck.Block
import CueCheck.Proofs.Lines
import Mathlib.Algebra.Order.Ring.Int
import Mathlib.Data.List.Induction

/-!
Written numbers and timestamps read back: the digits of a number give its value, and two-digit
clocks are read off the front of a text.
-/

namespace CueCheck

namespace Numeral

theorem isDigit_iff {c : Char} : isDigit c = true ↔ 48 ≤ c.toNat ∧ c.toNat ≤ 57 := by
  simp [isDigit, Char.le_def, UInt32.le_iff_toNat_le]

theorem not_isBlank_of_isDigit {c : Char} (h : isDigit c = true) : Text.isBlank c = false := by
  rw [isDigit_iff] at h
  simp only [Text.isBlank, Bool.or_eq_false_iff, Bool.and_eq_false_iff, decide_eq_false_iff_not,
    beq_eq_false_iff_ne]
  omega

theorem isDigit_of_mem_digits {n : Nat} {c : Char} (h : c ∈ digits n) : isDigit c = true := by
  have hc := Nat.isDigit_of_mem_toDigits (by decide) (by decide) h
  rw [isDigit_iff]
  simpa [Char.isDigit, UInt32.le_iff_toNat_le] using hc

theorem digits_ne_nil (n : Nat) : digits n ≠ [] := Nat.toDigits_ne_nil

@[simp] theorem value_digits (n : Nat) : value (digits n) = n := Nat.ofDigitChars_ten_toDigits

theorem length_digits_le_iff {n width : Nat} (h : 0 < width) :
    (digits n).length ≤ width ↔ n < 10 ^ width :=
  Nat.length_toDigits_le_iff (by decide) h

theorem ofInt_of_nonneg {i : Int} (h : 0 ≤ i) : ofInt i = digits i.toNat := by
  rw [ofInt, if_neg (by omega), show i.natAbs = i.toNat by omega]

theorem isDigit_of_mem_padded {width n : Nat} {c : Char} (h : c ∈ padded width n) :
    isDigit c = true := by
  rcases List.mem_append.1 h with h | h
  · rw [List.eq_of_mem_replicate h]
    decide
  · exact isDigit_of_mem_digits h

@[simp] theorem value_padded (width n : Nat) : value (padded width n) = n := by
  change Nat.ofDigitChars 10 (padded width n) 0 = n
  rw [padded, Nat.ofDigitChars_append, Nat.ofDigitChars_replicate_zero, Nat.mul_zero]
  exact value_digits n

theorem length_padded_of_lt {width n : Nat} (hw : 0 < width) (h : n < 10 ^ width) :
    (padded width n).length = width := by
  rw [length_padded]
  exact Nat.max_eq_left ((length_digits_le_iff hw).2 h)

theorem digitValue_le {c : Char} (h : isDigit c = true) : digitValue c ≤ 9 := by
  have hc := isDigit_iff.1 h
  rw [digitValue]
  simp
  omega

theorem value_lt (ds : Text) (h : ∀ c ∈ ds, isDigit c = true) : value ds < 10 ^ ds.length := by
  induction ds using List.reverseRecOn with
  | nil => decide
  | append_singleton ds c ih =>
    have hds := ih fun d hd => h d (List.mem_append_left _ hd)
    have hv := digitValue_le (h c (List.mem_append_right _ List.mem_cons_self))
    rw [value_append_singleton, List.length_append, List.length_singleton, Nat.pow_succ]
    omega

theorem lt_pow_maxNumeralDigits {i : Int} (h : i < 10) : i < 10 ^ maxNumeralDigits := by
  have hpow : (10 : Nat) ^ 1 < 10 ^ maxNumeralDigits :=
    Nat.pow_lt_pow_right (by decide) (by decide)
  have hcast := Int.ofNat_lt.2 hpow
  rw [Int.natCast_pow, Int.natCast_pow] at hcast
  exact Int.lt_trans h hcast

end Numeral

namespace Timestamp

open Numeral

theorem takeWhile_isDigit_append {ds rest : Text} (hds : ∀ c ∈ ds, isDigit c = true)
    (hrest : ∀ c ∈ rest.head?, isDigit c = false) :
    (ds ++ rest).takeWhile isDigit = ds ∧ (ds ++ rest).dropWhile isDigit = rest := by
  rw [List.takeWhile_append_of_pos hds, List.dropWhile_append_of_pos hds]
  cases rest with
  | nil => simp
  | cons c rest =>
    have hc : isDigit c = false := hrest c rfl
    simp [hc]

/-- A run of digits of a given length. -/
structure IsField (width : Nat) (ds : Text) : Prop where
  length : ds.length = width
  digits : ∀ c ∈ ds, isDigit c = true

theorem isField_padded {width n : Nat} (hw : 0 < width) (h : n < 10 ^ width) :
    IsField width (padded width n) :=
  ⟨length_padded_of_lt hw h, fun _ => isDigit_of_mem_padded⟩

theorem takeDigits?_append {ds : Text} (h : ∀ c ∈ ds, isDigit c = true) (rest : Text) :
    takeDigits? ds.length (ds ++ rest) = some (ds, rest) := by
  induction ds with
  | nil => rfl
  | cons c ds ih =>
    have hds := ih fun d hd => h d (List.mem_cons_of_mem _ hd)
    rw [List.length_cons, List.cons_append, takeDigits?, if_pos (h c List.mem_cons_self), hds]
    rfl

/-- A field is taken off a text as it stands. -/
theorem IsField.takeDigits?_append {width : Nat} {ds : Text} (h : IsField width ds) (rest : Text) :
    takeDigits? width (ds ++ rest) = some (ds, rest) := by
  rw [← h.length]
  exact Timestamp.takeDigits?_append h.digits rest

/-- What is taken off a text is a field at its front. -/
theorem isField_of_takeDigits? {width : Nat} {t ds rest : Text}
    (h : takeDigits? width t = some (ds, rest)) : IsField width ds ∧ t = ds ++ rest := by
  induction width generalizing t ds rest with
  | zero =>
    rw [takeDigits?, Option.some.injEq, Prod.mk.injEq] at h
    rw [← h.1, ← h.2]
    exact ⟨⟨rfl, fun c hc => absurd hc List.not_mem_nil⟩, rfl⟩
  | succ width ih =>
    cases t with
    | nil => cases h
    | cons c t =>
      rw [takeDigits?] at h
      split at h
      · next hc =>
        obtain ⟨⟨ds', rest'⟩, ht, he⟩ := Option.map_eq_some_iff.1 h
        injection he with hds hrest
        obtain ⟨hfield, rfl⟩ := ih ht
        subst hds hrest
        refine ⟨⟨by rw [List.length_cons, hfield.length], ?_⟩, rfl⟩
        intro d hd
        rcases List.mem_cons.1 hd with rfl | hd
        · exact hc
        · exact hfield.digits d hd
      · cases h

theorem IsField.value_lt {width : Nat} {ds : Text} (h : IsField width ds) :
    value ds < 10 ^ width := by
  rw [← h.length]
  exact Numeral.value_lt ds h.digits

/-- The clock fits its fields: two digits for all but the milliseconds, which have three. -/
structure IsNarrow (c : Clock) : Prop where
  hours : c.hours < 100
  minutes : c.minutes < 100
  seconds : c.seconds < 100
  millis : c.millis < 1000

/-- The fields after the hours are read whatever follows them. -/
theorem afterHours?_append {minutes seconds millis : Text} (hm : IsField 2 minutes)
    (hs : IsField 2 seconds) (hms : IsField 3 millis) (hours : Nat) (rest : Text) :
    afterHours? hours (':' :: (minutes ++ ':' :: (seconds ++ ',' :: (millis ++ rest)))) =
      some (⟨hours, value minutes, value seconds, value millis⟩, rest) := by
  simp [afterHours?, Text.after?, hm.takeDigits?_append, hs.takeDigits?_append,
    hms.takeDigits?_append]

/-- The whole run of digits in front of the other fields is taken for the hours. -/
theorem wide?_append {hours minutes seconds millis : Text} (hh : ∀ c ∈ hours, isDigit c = true)
    (hlen : 2 ≤ hours.length) (hm : IsField 2 minutes) (hs : IsField 2 seconds)
    (hms : IsField 3 millis) (rest : Text) :
    wide? (hours ++ ':' :: (minutes ++ ':' :: (seconds ++ ',' :: (millis ++ rest)))) =
      some (hours, ⟨0, value minutes, value seconds, value millis⟩) := by
  let fields := minutes ++ ':' :: (seconds ++ ',' :: (millis ++ rest))
  have hcolon : ∀ d ∈ (':' :: fields).head?, isDigit d = false := by
    intro d hd
    rw [← Option.some.inj hd]
    rfl
  obtain ⟨hhours, hrest⟩ := takeWhile_isDigit_append hh hcolon
  rw [wide?, hhours, hrest, afterHours?_append hm hs hms]
  simp only [guard, if_pos hlen]
  rfl

/-- A timestamp as it may be written, and what it stands for: fields of two digits each, and the
milliseconds of three. -/
inductive Spells : Text → Clock → Prop where
  | fields {hours minutes seconds millis : Text} (hh : IsField 2 hours) (hm : IsField 2 minutes)
      (hs : IsField 2 seconds) (hms : IsField 3 millis) :
      Spells (hours ++ ':' :: minutes ++ ':' :: seconds ++ ',' :: millis)
        ⟨value hours, value minutes, value seconds, value millis⟩

theorem spells_text {c : Clock} (h : IsNarrow c) : Spells c.text c := by
  have hfields := Spells.fields (isField_padded (by decide) h.hours)
    (isField_padded (by decide) h.minutes) (isField_padded (by decide) h.seconds)
    (isField_padded (by decide) h.millis)
  simp only [value_padded] at hfields
  exact hfields

/-- A timestamp is read as what it stands for, whatever follows it. -/
theorem Spells.narrow?_append {t : Text} {c : Clock} (h : Spells t c) (rest : Text) :
    narrow? (t ++ rest) = some (c, rest) := by
  cases h with
  | fields hh hm hs hms =>
    simp only [List.append_assoc, List.cons_append]
    rw [narrow?, hh.takeDigits?_append]
    exact afterHours?_append hm hs hms _ rest

theorem narrow?_text {c : Clock} (h : IsNarrow c) (rest : Text) :
    narrow? (c.text ++ rest) = some (c, rest) := (spells_text h).narrow?_append rest

/-- What is read at the front of a text is a timestamp. -/
theorem exists_spells_of_narrow? {t rest : Text} {c : Clock} (h : narrow? t = some (c, rest)) :
    ∃ s, Spells s c ∧ t = s ++ rest := by
  simp only [narrow?, afterHours?, Option.bind_eq_bind, Option.bind_eq_some_iff, Prod.exists,
    Option.pure_def, Option.some.injEq, Prod.mk.injEq] at h
  obtain ⟨hours, t₁, hh, t₂, h₁, minutes, t₃, hm, t₄, h₂, seconds, t₅, hs, t₆, h₃, millis, t₇, hms,
    rfl, rfl⟩ := h
  obtain ⟨hhours, rfl⟩ := isField_of_takeDigits? hh
  obtain ⟨hminutes, rfl⟩ := isField_of_takeDigits? hm
  obtain ⟨hseconds, rfl⟩ := isField_of_takeDigits? hs
  obtain ⟨hmillis, rfl⟩ := isField_of_takeDigits? hms
  refine ⟨_, .fields hhours hminutes hseconds hmillis, ?_⟩
  simp [Text.eq_append_of_after? h₁, Text.eq_append_of_after? h₂, Text.eq_append_of_after? h₃]

theorem spells_iff {t : Text} {c : Clock} : Spells t c ↔ narrow? t = some (c, []) := by
  constructor
  · intro h
    rw [← List.append_nil t]
    exact h.narrow?_append []
  · intro h
    obtain ⟨s, hs, rfl⟩ := exists_spells_of_narrow? h
    rwa [List.append_nil]

instance (t : Text) (c : Clock) : Decidable (Spells t c) := decidable_of_iff _ spells_iff.symm

theorem Spells.isNarrow {t : Text} {c : Clock} (h : Spells t c) : IsNarrow c := by
  cases h with
  | fields hh hm hs hms => exact ⟨hh.value_lt, hm.value_lt, hs.value_lt, hms.value_lt⟩

theorem isNarrow_of_narrow? {t rest : Text} {c : Clock} (h : narrow? t = some (c, rest)) :
    IsNarrow c := by
  obtain ⟨s, hs, -⟩ := exists_spells_of_narrow? h
  exact hs.isNarrow

theorem isNarrow_ofMillis {n : Nat} (h : n < 360000000) : IsNarrow (Clock.ofMillis n) := by
  constructor <;> simp only [Clock.ofMillis] <;> omega

theorem IsNarrow.total_lt {c : Clock} (h : IsNarrow c) : c.total < 362440000 := by
  have hh := h.hours
  have hm := h.minutes
  have hs := h.seconds
  have hms := h.millis
  rw [Clock.total]
  omega

/-- The characters of a timestamp: digits, colons and a comma. -/
theorem mem_format {ms : Int} {c : Char} (h : c ∈ format ms) :
    isDigit c = true ∨ c = ':' ∨ c = ',' := by
  simp only [format, Clock.text, List.mem_append, List.mem_cons] at h
  rcases h with ((h | rfl | h) | rfl | h) | rfl | h
  · exact .inl (isDigit_of_mem_padded h)
  · exact .inr (.inl rfl)
  · exact .inl (isDigit_of_mem_padded h)
  · exact .inr (.inl rfl)
  · exact .inl (isDigit_of_mem_padded h)
  · exact .inr (.inr rfl)
  · exact .inl (isDigit_of_mem_padded h)

end Timestamp

end CueCheck
