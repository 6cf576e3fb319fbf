import CueCheck.Proofs.MonotoneRounding

/-!
The error of rounding: a quotient that is not tiny is off by at most one part in `2 ^ 53`, comes out
exactly where it has few enough bits, and passes a whole number only by more than half a step.
-/

namespace CueCheck

section NearestEven

variable {num den : Nat}

theorem nearestEven_bounds (num : Nat) (hd : 0 < den) :
    2 * num ≤ 2 * (den * nearestEven num den) + den ∧
      2 * (den * nearestEven num den) ≤ 2 * num + den := by
  have hnum := Nat.div_add_mod num den
  have hrest := Nat.mod_lt num hd
  have hstep := Nat.mul_add_one den (num / den)
  rw [nearestEven]
  split_ifs <;> omega

/-- An even number is passed only by more than half a step: half a step goes back to it. -/
theorem lt_nearestEven_iff (num : Nat) {k : Nat} (hk : k % 2 = 0) (hd : 0 < den) :
    k < nearestEven num den ↔ (2 * k + 1) * den < 2 * num := by
  have hnum := Nat.div_add_mod num den
  have hrest := Nat.mod_lt num hd
  have hleft : (2 * k + 1) * den = 2 * (den * k) + den := by ring
  have hlow := div_le_nearestEven num den
  have hhigh := nearestEven_le num den
  rw [hleft]
  rcases Nat.lt_trichotomy k (num / den) with hlt | heq | hgt
  · have hmul := Nat.mul_le_mul_left den hlt
    rw [Nat.mul_succ] at hmul
    omega
  · rw [← heq] at hnum
    rw [nearestEven, ← heq]
    split_ifs <;> omega
  · have hmul := Nat.mul_le_mul_left den hgt
    rw [Nat.mul_succ] at hmul
    omega

theorem nearestEven_of_dvd (h : den ∣ num) (hd : 0 < den) : den * nearestEven num den = num := by
  have hrest := Nat.mod_eq_zero_of_dvd h
  rw [nearestEven, hrest, if_pos (by omega)]
  exact Nat.mul_div_cancel' h

end NearestEven

namespace Binary64

variable {num den : Nat}

theorem rounded_nonneg (num den : Nat) : 0 ≤ rounded num den := by
  rw [rounded, value]
  positivity

/-- Rounding is off by at most half a step. -/
theorem abs_rounded_sub_le_half_step (hn : 0 < num) (hd : 0 < den) :
    |rounded num den - num / den| ≤ 2 ^ quotientExponent num den / 2 := by
  obtain ⟨-, hpos⟩ := scaled_pos hn hd (quotientExponent num den)
  obtain ⟨hlow, hhigh⟩ := nearestEven_bounds (scaled num den (quotientExponent num den)).1 hpos
  have hratio := scaled_ratio num den (quotientExponent num den)
  rw [rounded, value, roundedMantissa]
  generalize scaled num den (quotientExponent num den) = s at *
  have hpow : (0 : ℚ) < 2 ^ quotientExponent num den := by positivity
  have hposq : (0 : ℚ) < s.2 := by exact_mod_cast hpos
  have hlowq : (2 * s.1 : ℚ) ≤ 2 * (s.2 * nearestEven s.1 s.2) + s.2 := by exact_mod_cast hlow
  have hhighq : (2 * (s.2 * nearestEven s.1 s.2) : ℚ) ≤ 2 * s.1 + s.2 := by exact_mod_cast hhigh
  have hquotient : (num / den : ℚ) = s.1 / s.2 * 2 ^ quotientExponent num den := by
    rw [hratio, div_mul_cancel₀ _ hpow.ne']
  have hmantissa : |(nearestEven s.1 s.2 : ℚ) - s.1 / s.2| ≤ 1 / 2 := by
    have hs : (s.1 : ℚ) = s.2 * (s.1 / s.2) := (mul_div_cancel₀ _ hposq.ne').symm
    rw [hs] at hlowq hhighq
    rw [abs_le]
    constructor
    · refine le_of_mul_le_mul_left ?_ hposq
      linarith
    · refine le_of_mul_le_mul_left ?_ hposq
      linarith
  rw [hquotient, ← sub_mul, abs_mul, abs_of_pos hpow]
  calc |(nearestEven s.1 s.2 : ℚ) - s.1 / s.2| * 2 ^ quotientExponent num den
      ≤ 1 / 2 * 2 ^ quotientExponent num den := by gcongr
    _ = 2 ^ quotientExponent num den / 2 := by ring

/-- A quotient that is not tiny has a mantissa of full precision. -/
theorem quotientExponent_eq_fullExponent (hn : 0 < num) (hd : 0 < den)
    (h : (2 : ℚ) ^ (-1022 : Int) ≤ num / den) :
    quotientExponent num den = fullExponent num den := by
  have hlt := h.trans_lt (fullExponent_spec hn hd).2
  rw [zpow_lt_zpow_iff_right₀ one_lt_two] at hlt
  rw [quotientExponent_eq, minExponent]
  omega

theorem abs_rounded_sub_le (hn : 0 < num) (hd : 0 < den)
    (h : (2 : ℚ) ^ (-1022 : Int) ≤ num / den) :
    |rounded num den - num / den| ≤ num / den / 2 ^ 53 := by
  have hfull := (fullExponent_spec hn hd).1
  have hhalf := abs_rounded_sub_le_half_step hn hd
  rw [quotientExponent_eq_fullExponent hn hd h] at hhalf
  calc |rounded num den - num / den| ≤ 2 ^ fullExponent num den / 2 := hhalf
    _ = 2 ^ (fullExponent num den + 52) / 2 ^ 53 := by
      rw [zpow_add₀ two_ne_zero, zpow_ofNat]
      ring
    _ ≤ num / den / 2 ^ 53 := by gcongr

/-- A quotient is rounded to itself where a mantissa can hold it. -/
theorem rounded_eq_of_dvd (hn : 0 < num) (hd : 0 < den)
    (h : (scaled num den (quotientExponent num den)).2 ∣
      (scaled num den (quotientExponent num den)).1) : rounded num den = num / den := by
  obtain ⟨-, hpos⟩ := scaled_pos hn hd (quotientExponent num den)
  have hratio := scaled_ratio num den (quotientExponent num den)
  have hexact := nearestEven_of_dvd h hpos
  rw [rounded, value, roundedMantissa]
  generalize scaled num den (quotientExponent num den) = s at *
  have hpow : (0 : ℚ) < 2 ^ quotientExponent num den := by positivity
  have hposq : (0 : ℚ) < s.2 := by exact_mod_cast hpos
  have hexactq : (s.2 * nearestEven s.1 s.2 : ℚ) = s.1 := by exact_mod_cast hexact
  rw [← hexactq, mul_div_cancel_left₀ _ hposq.ne', eq_div_iff hpow.ne'] at hratio
  exact hratio

theorem quotientExponent_le_of_lt (hn : 0 < num) (hd : 0 < den) {b : Int} (hb : -1021 ≤ b)
    (h : (num / den : ℚ) < 2 ^ b) : quotientExponent num den ≤ b - 53 := by
  have hfull := (fullExponent_spec hn hd).1.trans_lt h
  rw [zpow_lt_zpow_iff_right₀ one_lt_two] at hfull
  rw [quotientExponent_eq, minExponent]
  omega

/-- Rounding does not lift a quotient over a power of two. -/
theorem rounded_le_two_pow (hn : 0 < num) (hd : 0 < den) {b : Int} (hb : -1021 ≤ b)
    (h : (num / den : ℚ) < 2 ^ b) : rounded num den ≤ 2 ^ b := by
  have hexp := quotientExponent_le_of_lt hn hd hb h
  have hmantissa : (roundedMantissa num den : ℚ) ≤ 2 ^ 53 := by
    exact_mod_cast roundedMantissa_le hn hd
  calc rounded num den ≤ 2 ^ 53 * 2 ^ (b - 53) := by
        rw [rounded, value]
        gcongr
        exact one_le_two
    _ = 2 ^ b := by
        rw [zpow_sub₀ two_ne_zero, zpow_ofNat]
        exact mul_div_cancel₀ _ (by positivity)

theorem two_pow_le_rounded (hn : 0 < num) (hd : 0 < den) {b : Int} (hb : -1021 ≤ b)
    (h : (2 : ℚ) ^ b ≤ num / den) : 2 ^ b ≤ rounded num den := by
  have hfull := h.trans_lt (fullExponent_spec hn hd).2
  rw [zpow_lt_zpow_iff_right₀ one_lt_two] at hfull
  have hexp : b - 52 ≤ quotientExponent num den := by
    rw [quotientExponent_eq]
    omega
  have hmin : minExponent < quotientExponent num den := by
    rw [minExponent]
    omega
  have hmantissa : (2 ^ 52 : ℚ) ≤ roundedMantissa num den := by
    exact_mod_cast le_roundedMantissa hn hd hmin
  calc (2 : ℚ) ^ b = 2 ^ 52 * 2 ^ (b - 52) := by
        rw [zpow_sub₀ two_ne_zero, zpow_ofNat]
        exact (mul_div_cancel₀ _ (by positivity)).symm
    _ ≤ rounded num den := by
        rw [rounded, value]
        gcongr
        exact one_le_two

section Whole

variable {k : Nat}

theorem two_pow_log2_bounds (hk : 0 < k) :
    (2 : ℚ) ^ (k.log2 : Int) ≤ k ∧ (k : ℚ) + 1 ≤ 2 ^ ((k.log2 : Int) + 1) := by
  have hlow : 2 ^ k.log2 ≤ k := Nat.log2_self_le (by omega)
  have hhigh : k + 1 ≤ 2 ^ (k.log2 + 1) := Nat.lt_log2_self
  rw [show (k.log2 : Int) + 1 = (k.log2 + 1 : Nat) from rfl, zpow_natCast, zpow_natCast]
  exact ⟨by exact_mod_cast hlow, by exact_mod_cast hhigh⟩

/-- Half the distance from a whole number to the next greater number. -/
def halfStep (k : Nat) : ℚ := 2 ^ ((k.log2 : Int) - 53)

theorem halfStep_pos (k : Nat) : 0 < halfStep k := by
  rw [halfStep]
  positivity

theorem halfStep_le (hk : 0 < k) : halfStep k ≤ k / 2 ^ 53 := by
  rw [halfStep, zpow_sub₀ two_ne_zero, zpow_ofNat]
  gcongr
  exact (two_pow_log2_bounds hk).1

/-- At the exponent of a whole number that has room for one more bit, its mantissa is even. -/
theorem natCast_lt_rounded_iff_of_eq (hn : 0 < num) (hd : 0 < den) (hlog : k.log2 < 52)
    (hexp : quotientExponent num den = k.log2 - 52) :
    (k : ℚ) < rounded num den ↔ k + halfStep k < num / den := by
  obtain ⟨-, hpos⟩ := scaled_pos hn hd (quotientExponent num den)
  have hratio := scaled_ratio num den (quotientExponent num den)
  have heven : k * 2 ^ (52 - k.log2) % 2 = 0 := by
    rw [show 52 - k.log2 = 51 - k.log2 + 1 by omega, Nat.pow_succ, ← Nat.mul_assoc]
    exact Nat.mul_mod_left _ _
  have hmantissa := lt_nearestEven_iff (scaled num den (quotientExponent num den)).1 heven hpos
  rw [← roundedMantissa] at hmantissa
  have hscale : (2 : ℚ) ^ (52 - k.log2) * 2 ^ quotientExponent num den = 1 := by
    rw [hexp, ← zpow_natCast, ← zpow_add₀ two_ne_zero]
    rw [show ((52 - k.log2 : Nat) : Int) + ((k.log2 : Int) - 52) = 0 by omega, zpow_zero]
  have hhalf : halfStep k = 2 ^ quotientExponent num den / 2 := by
    rw [halfStep, hexp, show (k.log2 : Int) - 52 = k.log2 - 53 + 1 by ring,
      zpow_add₀ two_ne_zero, zpow_one]
    ring
  rw [rounded, value, hhalf]
  generalize scaled num den (quotientExponent num den) = s at *
  have hpow : (0 : ℚ) < 2 ^ quotientExponent num den := by positivity
  have hposq : (0 : ℚ) < s.2 := by exact_mod_cast hpos
  have hwhole : (k : ℚ) = k * 2 ^ (52 - k.log2) * 2 ^ quotientExponent num den := by
    rw [mul_assoc, hscale, mul_one]
  have hleft : (k : ℚ) < roundedMantissa num den * 2 ^ quotientExponent num den ↔
      k * 2 ^ (52 - k.log2) < roundedMantissa num den := by
    rw [hwhole, mul_lt_mul_iff_left₀ hpow]
    exact_mod_cast Iff.rfl
  have hright : (k : ℚ) + 2 ^ quotientExponent num den / 2 < num / den ↔
      (2 * (k * 2 ^ (52 - k.log2)) + 1) * s.2 < 2 * s.1 := by
    have hsum : (k : ℚ) + 2 ^ quotientExponent num den / 2 =
        (2 * (k * 2 ^ (52 - k.log2)) + 1) / 2 * 2 ^ quotientExponent num den := by
      rw [add_div, add_mul, mul_div_cancel_left₀ _ two_ne_zero, ← hwhole]
      ring
    rw [hsum, ← lt_div_iff₀ hpow, ← hratio, lt_div_iff₀ hposq, div_mul_eq_mul_div,
      div_lt_iff₀' two_pos]
    exact_mod_cast Iff.rfl
  rw [hleft, hright]
  exact hmantissa

/-- A whole number is passed in rounding exactly by quotients that lie more than half a step above
it. -/
theorem natCast_lt_rounded_iff (hn : 0 < num) (hd : 0 < den) (hk : 0 < k) (hsmall : k < 2 ^ 52) :
    (k : ℚ) < rounded num den ↔ k + halfStep k < num / den := by
  obtain ⟨hlow, hhigh⟩ := two_pow_log2_bounds hk
  obtain ⟨hfull, hfull'⟩ := fullExponent_spec hn hd
  have hlog : k.log2 < 52 := (Nat.log2_lt (by omega)).2 hsmall
  have hstep : halfStep k < 1 := zpow_lt_one_of_neg₀ one_lt_two (by omega)
  have hstep' := halfStep_pos k
  rcases lt_or_ge (num / den : ℚ) (2 ^ (k.log2 : Int)) with hbelow | hfrom
  · have hle := rounded_le_two_pow hn hd (by omega) hbelow
    constructor
    · intro hround
      linarith
    · intro hpass
      linarith
  · rcases lt_or_ge (num / den : ℚ) (2 ^ ((k.log2 : Int) + 1)) with hbelow | habove
    · apply natCast_lt_rounded_iff_of_eq hn hd hlog
      have hleft := hfull.trans_lt hbelow
      have hright := hfrom.trans_lt hfull'
      rw [zpow_lt_zpow_iff_right₀ one_lt_two] at hleft hright
      rw [quotientExponent_eq, minExponent]
      omega
    · have hle := two_pow_le_rounded hn hd (by omega) habove
      constructor
      · intro _
        linarith
      · intro _
        linarith

end Whole

end Binary64

end CueCheck
