import CueCheck.Proofs.CoherentIssues
import CueCheck.Proofs.ShownDurations
import Mathlib.Data.Nat.Prime.Defs

/-!
Speed limits: a check agrees with exact arithmetic on every text that is not exactly at a limit of a
whole number of characters per second, and there it may find the speed too high.
-/

namespace CueCheck

open Binary64

namespace Binary64

variable {k : Nat}

theorem rounded_natCast (hk : 0 < k) (hsmall : k < 2 ^ 52) : rounded k 1 = k := by
  have hone : ((k : ℚ) / (1 : Nat)) = k := by rw [Nat.cast_one, div_one]
  have hlt : ((k : ℚ) / (1 : Nat)) < 2 ^ (52 : Int) := by
    rw [hone, zpow_ofNat]
    exact_mod_cast hsmall
  have hexp := quotientExponent_le_of_lt hk Nat.one_pos (by decide) hlt
  have hexact := rounded_eq_of_dvd hk Nat.one_pos (by
    rw [scaled, if_neg (by omega)]
    exact Nat.one_dvd _)
  rw [hexact, hone]

theorem natCast_lt_limit (hsmall : k < 2 ^ 52) : (k : ℚ) < 2 ^ 1024 := by
  have hlt : (k : ℚ) < 2 ^ 52 := by exact_mod_cast hsmall
  exact hlt.trans (pow_lt_pow_right₀ one_lt_two (by decide))

theorem ofInt_natCast (hk : 0 < k) (hsmall : k < 2 ^ 52) :
    ∃ m e, ofInt k = finite false m e ∧ value m e = k := by
  have hround := rounded_natCast hk hsmall
  have hsign : decide ((k : Int) < 0) = false := decide_eq_false (by omega)
  rw [ofInt, hsign, Int.natAbs_natCast]
  rcases ofQuotient_cases false hk Nat.one_pos with ⟨-, m, e, heq, hvalue⟩ | ⟨hlarge, -⟩
  · exact ⟨m, e, heq, hvalue.trans hround⟩
  · rw [hround] at hlarge
    exact absurd (natCast_lt_limit hsmall) (not_lt.2 hlarge)

theorem lt_finite_false_iff {m n : Nat} {e f : Int} :
    lt (finite false m e) (finite false n f) = true ↔ value m e < value n f :=
  lt_finite_iff

/-- A whole number is below a rounded quotient where the quotient lies more than half a step above
it. -/
theorem lt_ofQuotient_iff {num den : Nat} (hk : 0 < k) (hsmall : k < 2 ^ 52) (hn : 0 < num)
    (hd : 0 < den) :
    (ofInt k).lt (ofQuotient false num den) = true ↔ k + halfStep k < num / den := by
  obtain ⟨m, e, hlimit, hvalue⟩ := ofInt_natCast hk hsmall
  rw [hlimit, ← natCast_lt_rounded_iff hn hd hk hsmall, ← hvalue]
  rcases ofQuotient_cases false hn hd with ⟨-, m', e', heq, hrounded⟩ | ⟨hlarge, heq⟩
  · rw [heq, lt_finite_false_iff, hrounded]
  · rw [heq, hvalue]
    exact iff_of_true rfl ((natCast_lt_limit hsmall).trans_le hlarge)

theorem lt_divideNat_iff {n m : Nat} {e : Int} (hk : 0 < k) (hsmall : k < 2 ^ 52) (hm : 0 < m) :
    (ofInt k).lt (divideNat n (finite false m e)) = true ↔
      (k + halfStep k) * value m e < n := by
  have hstep := halfStep_pos k
  have hvalue : 0 < value m e := by
    rw [value]
    positivity
  rcases Nat.eq_zero_or_pos n with rfl | hn
  · obtain ⟨j, f, hlimit, hlimitValue⟩ := ofInt_natCast hk hsmall
    rw [divideNat_zero_finite, hlimit, lt_finite_false_iff, hlimitValue, value, Nat.cast_zero,
      zero_mul]
    apply iff_of_false
    · exact not_lt.2 k.cast_nonneg
    · exact not_lt.2 (by positivity)
  · obtain ⟨hnum, hden⟩ := scaled_pos hn hm e
    have hratio := scaled_ratio n m e
    rw [divideNat_finite, lt_ofQuotient_iff hk hsmall hnum hden, hratio, ← lt_div_iff₀ hvalue,
      value, div_div]

end Binary64

section Limits

variable {n d k : Nat}

theorem mul_rounded_le (k num den : Nat) :
    k * rounded num den ≤ (k + halfStep k) * rounded num den := by
  have hstep := halfStep_pos k
  exact mul_le_mul_of_nonneg_right (by linarith) (rounded_nonneg num den)

/-- Where a text is above a limit at all, it is so by more than rounding takes away. -/
theorem passes_of_lt (hd : 0 < d) (hk : 0 < k) (hn : n < 10 ^ 9) (h : k * d < 1000 * n) :
    (k + halfStep k) * rounded d 1000 < n := by
  have hnonneg := rounded_nonneg d 1000
  have herror := (abs_le.1 (abs_rounded_seconds_sub_le hd)).2
  have hround : rounded d 1000 ≤ d / 1000 + d / 1000 / 2 ^ 53 := by linarith
  have hstep := halfStep_le hk
  have hpass : (k * d + 1 : ℚ) ≤ 1000 * n := by exact_mod_cast h
  have hbound : (n : ℚ) < 10 ^ 9 := by exact_mod_cast hn
  calc (k + halfStep k) * rounded d 1000
      ≤ (k + k / 2 ^ 53) * (d / 1000 + d / 1000 / 2 ^ 53) := by gcongr
    _ = k * d * ((1 + 1 / 2 ^ 53) ^ 2 / 1000) := by ring
    _ < n := by linarith

/-- Where a text is below a limit, it is so by more than rounding adds. -/
theorem not_passes_of_gt (hd : 0 < d) (hd' : d < 10 ^ 9) (hk : k < 10 ^ 6)
    (h : 1000 * n < k * d) : ¬ (k + halfStep k) * rounded d 1000 < n := by
  have herror := (abs_le.1 (abs_rounded_seconds_sub_le hd)).1
  have hround : d / 1000 - d / 1000 / 2 ^ 53 ≤ rounded d 1000 := by linarith
  have hpass : (1000 * n + 1 : ℚ) ≤ k * d := by exact_mod_cast h
  have hbound : (k * d : ℚ) < 10 ^ 6 * 10 ^ 9 := by
    exact_mod_cast Nat.mul_lt_mul'' hk hd'
  rw [not_lt]
  calc (n : ℚ) ≤ k * d * ((1 - 1 / 2 ^ 53) / 1000) := by linarith
    _ = k * (d / 1000 - d / 1000 / 2 ^ 53) := by ring
    _ ≤ k * rounded d 1000 := by gcongr
    _ ≤ (k + halfStep k) * rounded d 1000 := mul_rounded_le k d 1000

/-- Seconds are exact where a duration is made of whole eighths of a second. -/
theorem rounded_seconds_of_dvd (hd : 0 < d) (hd' : d < 10 ^ 9) (h : 125 ∣ d) :
    rounded d 1000 = d / 1000 := by
  have hlt : (d / (1000 : Nat) : ℚ) < 2 ^ (20 : Int) := by
    have hbound : (d : ℚ) < 10 ^ 9 := by exact_mod_cast hd'
    rw [zpow_ofNat, Nat.cast_ofNat, div_lt_iff₀ (by positivity)]
    linarith
  have hexp := quotientExponent_le_of_lt hd (by decide) (by decide) hlt
  have hexact := rounded_eq_of_dvd hd (by decide : 0 < 1000) (by
    rw [scaled, if_neg (by omega), twoPow_eq]
    exact Nat.mul_dvd_mul h (Nat.pow_dvd_pow 2 (by omega : 3 ≤ _)))
  exact_mod_cast hexact

/-- A limit that five does not divide is reached only by durations whose seconds are exact. -/
theorem not_fallsShort_of_not_dvd (hd : 0 < d) (hd' : d < 10 ^ 9) (hk : ¬ 5 ∣ k)
    (h : k * d = 1000 * n) : ¬ FallsShort d := by
  have hcoprime : Nat.Coprime (5 ^ 3) k :=
    Nat.Coprime.pow_left 3 ((Nat.Prime.coprime_iff_not_dvd Nat.prime_five).2 hk)
  have hdvd : 5 ^ 3 ∣ d := by
    apply hcoprime.dvd_of_dvd_mul_left
    rw [h]
    exact Nat.dvd_mul_right_of_dvd (by decide) n
  rw [fallsShort_natCast, rounded_seconds_of_dvd hd hd' hdvd]
  exact lt_irrefl _

theorem not_passes_of_not_fallsShort (h : k * d = 1000 * n) (hd : ¬ FallsShort d) :
    ¬ (k + halfStep k) * rounded d 1000 < n := by
  have heq : (k * d : ℚ) = 1000 * n := by exact_mod_cast h
  rw [fallsShort_natCast, not_lt] at hd
  rw [not_lt]
  calc (n : ℚ) = k * (d / 1000) := by linarith
    _ ≤ k * rounded d 1000 := by gcongr
    _ ≤ (k + halfStep k) * rounded d 1000 := mul_rounded_le k d 1000

end Limits

namespace Entry

variable {rules : Rules} {e : Entry} {next? : Option Entry} {k : Nat}

theorem applies_readingSpeed_iff (hk : 0 < k) (hsmall : k < 2 ^ 52)
    (hlimit : rules.maxSpeed = .ofInt k) (hpos : 0 < e.duration) (h : e.duration.natAbs < 2 ^ 40) :
    e.Applies rules next? .readingSpeed ↔
      (k + halfStep k) * rounded e.duration.natAbs 1000 < e.text.length := by
  obtain ⟨m, f, hm, hseconds, hvalue⟩ := seconds_of_pos hpos h
  have hspeed := lt_divideNat_iff (n := e.text.length) (e := f) hk hsmall hm
  rw [Applies, readingSpeed_of_pos hpos, hseconds, hlimit, ← hvalue]
  exact hspeed

/-- A speed is found too high above the limit, and at the limit where the seconds that are counted
fall short by more than rounding back to the limit makes up for. -/
theorem applies_readingSpeed_iff_exact (hk : 0 < k) (hsmall : k < 10 ^ 6)
    (hlimit : rules.maxSpeed = .ofInt k) (hpos : 0 < e.duration) (hd : e.duration < 10 ^ 9)
    (hn : e.text.length < 10 ^ 9) :
    e.Applies rules next? .readingSpeed ↔
      k * e.duration < 1000 * e.text.length ∨ k * e.duration = 1000 * e.text.length ∧
        (k + halfStep k) * rounded e.duration.natAbs 1000 < e.text.length := by
  rw [applies_readingSpeed_iff hk (by omega) hlimit hpos (by omega)]
  obtain ⟨d, heq⟩ := Int.eq_ofNat_of_zero_le (Int.le_of_lt hpos)
  rw [heq] at hpos hd ⊢
  norm_cast at hpos hd ⊢
  rcases Nat.lt_trichotomy (k * d) (1000 * e.text.length) with hlt | hat | hgt
  · have hpass := passes_of_lt hpos hk hn hlt
    tauto
  · have hnot : ¬ k * d < 1000 * e.text.length := by omega
    tauto
  · have hpass := not_passes_of_gt hpos hd hsmall hgt
    have hnot : ¬ k * d < 1000 * e.text.length := by omega
    have hne : k * d ≠ 1000 * e.text.length := by omega
    tauto

end Entry

namespace Document

/-- A check agrees with exact arithmetic on every speed that is not at the limit, and at the limit
too where five does not divide it or the seconds do not fall short. -/
theorem speedIssue_iff {d : Document} {i : Nat} {e : Entry} (he : d.entries[i]? = some e)
    (hm : e.malformed = false) (hpos : 0 < e.duration) (hd : e.duration < 10 ^ 9)
    (hn : e.text.length < 10 ^ 9) {rules : Rules} {k : Nat} (hk : 0 < k) (hsmall : k < 10 ^ 6)
    (hlimit : rules.maxSpeed = .ofInt k) :
    ∃ issues, d.checkAt rules i = .ok issues ∧
      ((∃ issue ∈ issues, issue.kind = .readingSpeed) ↔
        k * e.duration < 1000 * e.text.length ∨ k * e.duration = 1000 * e.text.length ∧
          (k + halfStep k) * rounded e.duration.natAbs 1000 < e.text.length) ∧
      (¬ 5 ∣ k ∨ ¬ FallsShort e.duration →
        ((∃ issue ∈ issues, issue.kind = .readingSpeed) ↔
          k * e.duration < 1000 * e.text.length)) := by
  obtain ⟨issues, hcheck⟩ := Entry.check_eq_ok_of_lt (by omega : e.duration.natAbs < 2 ^ 40)
    (by omega : e.text.length < 2 ^ 69) rules d.entries[i + 1]?
  have hspeed : (∃ issue ∈ issues, issue.kind = .readingSpeed) ↔
      k * e.duration < 1000 * e.text.length ∨ k * e.duration = 1000 * e.text.length ∧
        (k + halfStep k) * rounded e.duration.natAbs 1000 < e.text.length := by
    rw [← Entry.applies_readingSpeed_iff_exact hk hsmall hlimit hpos hd hn,
      ← Entry.mem_kinds_iff hm, ← Entry.kinds_of_check hm hcheck, List.mem_map]
  refine ⟨issues, (checkAt_eq rules he).trans hcheck, hspeed, ?_⟩
  intro hexact
  rw [hspeed]
  apply or_iff_left
  rintro ⟨hat, hpass⟩
  obtain ⟨ms, hms⟩ := Int.eq_ofNat_of_zero_le (Int.le_of_lt hpos)
  rw [hms] at hpos hd hat hpass hexact
  norm_cast at hpos hd hat hpass
  have hshort : ¬ FallsShort ms := by
    rcases hexact with hfive | hshort
    · exact not_fallsShort_of_not_dvd hpos hd hfive hat
    · exact hshort
  exact not_passes_of_not_fallsShort hat hshort hpass

/-- A subtitle one millisecond too short for the limit of 21 characters per second. -/
def hurried : Entry := { index := 1, start := 1000, stop := 1619, text := "Thirteen char".toList }

theorem speedIssue_iff_hurried :
    (hurried.malformed = false ∧ hurried.duration = 619 ∧ hurried.text.length = 13 ∧
      ({} : Rules).maxSpeed = .ofInt (21 : Nat)) ∧
    ∃ issues, ({ entries := [hurried] } : Document).checkAt {} 0 = .ok issues ∧
      (∃ issue ∈ issues, issue.kind = .readingSpeed) ∧
      ((∃ issue ∈ issues, issue.kind = .readingSpeed) ↔
        (21 : Nat) * hurried.duration < 1000 * hurried.text.length) := by
  have hlimit : ({} : Rules).maxSpeed = .ofInt (21 : Nat) := rfl
  obtain ⟨issues, hcheck, -, hexact⟩ := speedIssue_iff (d := { entries := [hurried] }) (i := 0)
    (e := hurried) rfl rfl (by decide) (by decide) (by decide) (by decide) (by decide) hlimit
  have hiff := hexact (.inl (by decide))
  refine ⟨⟨rfl, rfl, rfl, hlimit⟩, issues, hcheck, ?_, hiff⟩
  rw [hiff]
  decide

/-- A subtitle that is shown exactly as long as the limit of 15 characters per second asks. -/
def unhurried : Entry :=
  { index := 1, start := 1000, stop := 2400, text := "Twenty-one characters".toList }

theorem speedIssue_iff_unhurried :
    unhurried.malformed = false ∧ unhurried.duration = 1400 ∧ unhurried.text.length = 21 ∧
      ∃ issues, ({ entries := [unhurried] } : Document).checkAt { maxSpeed := .ofInt 15 } 0 =
          .ok issues ∧
        issues = [⟨.readingSpeed, "High reading speed (15.0 CPS)"⟩] ∧
        ¬ ((∃ issue ∈ issues, issue.kind = .readingSpeed) ↔
          15 * unhurried.duration < 1000 * unhurried.text.length) := by
  have hcheck : ({ entries := [unhurried] } : Document).checkAt { maxSpeed := .ofInt 15 } 0 =
      .ok [⟨.readingSpeed, "High reading speed (15.0 CPS)"⟩] := by decide +kernel
  refine ⟨rfl, rfl, rfl, _, hcheck, rfl, ?_⟩
  intro hexact
  have hlt := hexact.1 ⟨_, List.mem_singleton_self _, rfl⟩
  revert hlt
  decide

end Document

end CueCheck
