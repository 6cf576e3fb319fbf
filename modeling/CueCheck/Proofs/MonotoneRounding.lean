import CueCheck.Proofs.CurrentIssues
import CueCheck.Proofs.Results
import Mathlib.Algebra.Order.Field.Power
import Mathlib.Data.Rat.Cast.Order
import Mathlib.Tactic.Linarith
import Mathlib.Tactic.NormNum
import Mathlib.Tactic.Positivity
import Mathlib.Tactic.Ring

/-!
Rounding keeps the order of quotients: the speed of a subtitle with a shorter text is no greater, so
that a check that succeeds goes on to succeed when a text gets shorter.
-/

namespace CueCheck

theorem nearestEven_le (num den : Nat) : nearestEven num den ≤ num / den + 1 := by
  rw [nearestEven]
  split
  · exact Nat.le_succ _
  · split
    · exact Nat.le_refl _
    · split
      · exact Nat.le_succ _
      · exact Nat.le_refl _

theorem nearestEven_mono {num num' : Nat} (h : num' ≤ num) (den : Nat) :
    nearestEven num' den ≤ nearestEven num den := by
  rcases Nat.lt_or_eq_of_le (Nat.div_le_div_right (c := den) h) with hlt | heq
  · calc nearestEven num' den ≤ num' / den + 1 := nearestEven_le num' den
      _ ≤ num / den := hlt
      _ ≤ nearestEven num den := div_le_nearestEven num den
  · -- With the same quotient the rest decides, and the larger rest does not round down alone.
    have hrest : num' % den ≤ num % den := by
      have hnum := Nat.div_add_mod num den
      have hnum' := Nat.div_add_mod num' den
      rw [heq] at hnum'
      omega
    simp only [nearestEven, heq]
    split_ifs <;> omega

namespace Binary64

/-- The exact value of a finite number without its sign. -/
def value (mantissa : Nat) (exponent : Int) : ℚ := mantissa * 2 ^ exponent

variable {num num' den : Nat}

theorem scaled_ratio (num den : Nat) (e : Int) :
    ((scaled num den e).1 : ℚ) / (scaled num den e).2 = num / den / 2 ^ e := by
  rw [scaled]
  split
  · next he =>
    obtain ⟨k, rfl⟩ := Int.eq_ofNat_of_zero_le he
    simp [twoPow_eq, div_div]
  · next he =>
    obtain ⟨k, rfl⟩ : ∃ k : Nat, e = -k := ⟨(-e).toNat, by omega⟩
    simp [twoPow_eq]
    ring

/-- The exponent at which a quotient has a mantissa of full precision, however small it is. -/
def fullExponent (num den : Nat) : Int :=
  let guess : Int := (num.log2 : Int) - den.log2 - precision
  let (n, d) := scaled num den guess
  if n / d < twoPow precision then guess else guess + 1

theorem quotientExponent_eq (num den : Nat) :
    quotientExponent num den = max minExponent (fullExponent num den) := rfl

/-- A quotient lies within a factor of two of the power that its logarithms give. -/
theorem quotient_bounds (hn : 0 < num) (hd : 0 < den) :
    (2 : ℚ) ^ ((num.log2 : Int) - den.log2 - 1) < num / den ∧
      (num / den : ℚ) < 2 ^ ((num.log2 : Int) - den.log2 + 1) := by
  have hdq : (0 : ℚ) < den := by exact_mod_cast hd
  have hnlow : (2 : ℚ) ^ num.log2 ≤ num := by exact_mod_cast Nat.log2_self_le (by omega)
  have hnhigh : (num : ℚ) < 2 ^ (num.log2 + 1) := by exact_mod_cast Nat.lt_log2_self
  have hdlow : (2 : ℚ) ^ den.log2 ≤ den := by exact_mod_cast Nat.log2_self_le (by omega)
  have hdhigh : (den : ℚ) < 2 ^ (den.log2 + 1) := by exact_mod_cast Nat.lt_log2_self
  constructor
  · rw [lt_div_iff₀ hdq]
    calc (2 : ℚ) ^ ((num.log2 : Int) - den.log2 - 1) * den
        < 2 ^ ((num.log2 : Int) - den.log2 - 1) * 2 ^ (den.log2 + 1) := by gcongr
      _ = 2 ^ num.log2 := by
        rw [← zpow_natCast, ← zpow_natCast, ← zpow_add₀ two_ne_zero]
        congr 1
        push_cast
        ring
      _ ≤ num := hnlow
  · rw [div_lt_iff₀ hdq]
    calc (num : ℚ) < 2 ^ (num.log2 + 1) := hnhigh
      _ = 2 ^ ((num.log2 : Int) - den.log2 + 1) * 2 ^ den.log2 := by
        rw [← zpow_natCast, ← zpow_natCast, ← zpow_add₀ two_ne_zero]
        congr 1
        push_cast
        ring
      _ ≤ 2 ^ ((num.log2 : Int) - den.log2 + 1) * den := by gcongr

/-- The integral quotient at an exponent is less than a power of two just if the quotient is less
than that power at the exponent. -/
theorem scaled_div_lt_iff (hn : 0 < num) (hd : 0 < den) (e : Int) (k : Nat) :
    (scaled num den e).1 / (scaled num den e).2 < 2 ^ k ↔ (num / den : ℚ) < 2 ^ (e + k) := by
  obtain ⟨-, hpos⟩ := scaled_pos hn hd e
  have hposq : (0 : ℚ) < (scaled num den e).2 := by exact_mod_cast hpos
  have hpow : (0 : ℚ) < 2 ^ e := by positivity
  have hdiv : (scaled num den e).1 / (scaled num den e).2 < 2 ^ k ↔
      ((scaled num den e).1 : ℚ) / (scaled num den e).2 < 2 ^ k := by
    rw [div_lt_iff₀ hposq, Nat.div_lt_iff_lt_mul hpos]
    exact_mod_cast Iff.rfl
  rw [hdiv, scaled_ratio, div_lt_iff₀' hpow, zpow_add₀ two_ne_zero, zpow_natCast]

theorem fullExponent_spec (hn : 0 < num) (hd : 0 < den) :
    (2 : ℚ) ^ (fullExponent num den + 52) ≤ num / den ∧
      (num / den : ℚ) < 2 ^ (fullExponent num den + 53) := by
  obtain ⟨hlow, hhigh⟩ := quotient_bounds hn hd
  have hiff := scaled_div_lt_iff hn hd ((num.log2 : Int) - den.log2 - precision) 53
  have hguess : (num.log2 : Int) - den.log2 - precision = num.log2 - den.log2 - 53 := rfl
  rw [hguess] at hiff
  rw [fullExponent, hguess]
  dsimp only
  split
  · next hlt =>
    refine ⟨?_, hiff.1 hlt⟩
    rw [show (num.log2 : Int) - den.log2 - 53 + 52 = num.log2 - den.log2 - 1 by ring]
    exact hlow.le
  · next hge =>
    rw [show (num.log2 : Int) - den.log2 - 53 + 1 + 53 = num.log2 - den.log2 + 1 by ring,
      show (num.log2 : Int) - den.log2 - 53 + 1 + 52 = num.log2 - den.log2 - 53 + (53 : Nat) by
        push_cast; ring]
    exact ⟨not_lt.1 fun hlt => hge (hiff.2 hlt), hhigh⟩

theorem fullExponent_mono (hn : 0 < num') (hd : 0 < den) (h : num' ≤ num) :
    fullExponent num' den ≤ fullExponent num den := by
  obtain ⟨hlow, -⟩ := fullExponent_spec hn hd
  obtain ⟨-, hhigh⟩ := fullExponent_spec (Nat.lt_of_lt_of_le hn h) hd
  have hle : (num' / den : ℚ) ≤ num / den := by gcongr
  have hpow := (hlow.trans hle).trans_lt hhigh
  rw [zpow_lt_zpow_iff_right₀ one_lt_two] at hpow
  omega

/-- The mantissa that rounding gives, before one that is too large is halved. -/
def roundedMantissa (num den : Nat) : Nat :=
  nearestEven (scaled num den (quotientExponent num den)).1
    (scaled num den (quotientExponent num den)).2

theorem roundedMantissa_le (hn : 0 < num) (hd : 0 < den) :
    roundedMantissa num den ≤ 2 ^ 53 := by
  have hlt : (scaled num den (quotientExponent num den)).1 /
      (scaled num den (quotientExponent num den)).2 < 2 ^ 53 := by
    rw [scaled_div_lt_iff hn hd]
    refine (fullExponent_spec hn hd).2.trans_le (zpow_le_zpow_right₀ one_le_two ?_)
    rw [quotientExponent_eq]
    push_cast
    omega
  exact (nearestEven_le _ _).trans hlt

theorem le_roundedMantissa (hn : 0 < num) (hd : 0 < den)
    (hmin : minExponent < quotientExponent num den) : 2 ^ 52 ≤ roundedMantissa num den := by
  have hfull : quotientExponent num den = fullExponent num den := by
    rw [quotientExponent_eq] at hmin ⊢
    omega
  refine le_trans ?_ (div_le_nearestEven _ _)
  rw [← not_lt, scaled_div_lt_iff hn hd, not_lt, hfull]
  exact (fullExponent_spec hn hd).1

/-- The value that rounding gives, if it is not too large for a finite number. -/
def rounded (num den : Nat) : ℚ := value (roundedMantissa num den) (quotientExponent num den)

theorem quotientExponent_mono (hn : 0 < num') (hd : 0 < den) (h : num' ≤ num) :
    quotientExponent num' den ≤ quotientExponent num den := by
  have hfull := fullExponent_mono hn hd h
  rw [quotientExponent_eq, quotientExponent_eq]
  omega

theorem scaled_mono (h : num' ≤ num) (den : Nat) (e : Int) :
    (scaled num' den e).1 ≤ (scaled num den e).1 ∧
      (scaled num' den e).2 = (scaled num den e).2 := by
  rw [scaled, scaled]
  split
  · exact ⟨h, rfl⟩
  · exact ⟨Nat.mul_le_mul_right _ h, rfl⟩

theorem rounded_mono (hn : 0 < num') (hd : 0 < den) (h : num' ≤ num) :
    rounded num' den ≤ rounded num den := by
  rw [rounded, rounded, value, value]
  rcases lt_or_eq_of_le (quotientExponent_mono hn hd h) with hlt | heq
  · -- The mantissa of the larger quotient is a full one, so that one exponent more is enough.
    have hmin : minExponent ≤ quotientExponent num' den := le_max_left _ _
    have hlow := le_roundedMantissa (Nat.lt_of_lt_of_le hn h) hd (hmin.trans_lt hlt)
    have hhigh := roundedMantissa_le hn hd
    have hlowq : (2 ^ 52 : ℚ) ≤ roundedMantissa num den := by exact_mod_cast hlow
    have hhighq : (roundedMantissa num' den : ℚ) ≤ 2 ^ 53 := by exact_mod_cast hhigh
    have hstep : (2 : ℚ) ^ (quotientExponent num' den + 1) ≤ 2 ^ quotientExponent num den :=
      zpow_le_zpow_right₀ one_le_two hlt
    calc (roundedMantissa num' den : ℚ) * 2 ^ quotientExponent num' den
        ≤ 2 ^ 53 * 2 ^ quotientExponent num' den := by gcongr
      _ = 2 ^ 52 * 2 ^ (quotientExponent num' den + 1) := by
        rw [zpow_add₀ two_ne_zero, zpow_one]
        ring
      _ ≤ 2 ^ 52 * 2 ^ quotientExponent num den := by gcongr
      _ ≤ roundedMantissa num den * 2 ^ quotientExponent num den := by gcongr
  · have hmantissa : roundedMantissa num' den ≤ roundedMantissa num den := by
      obtain ⟨hle, heq'⟩ := scaled_mono h den (quotientExponent num den)
      rw [roundedMantissa, roundedMantissa, heq, heq']
      exact nearestEven_mono hle _
    rw [heq]
    gcongr

theorem ofQuotient_eq (negative : Bool) (hn : 0 < num) :
    ofQuotient negative num den =
      if roundedMantissa num den < 2 ^ 53 then
        if quotientExponent num den ≤ maxExponent then
          finite negative (roundedMantissa num den) (quotientExponent num den)
        else infinite negative
      else if quotientExponent num den + 1 ≤ maxExponent then
        finite negative (2 ^ 52) (quotientExponent num den + 1)
      else infinite negative := by
  have hprecision : twoPow precision = 2 ^ 53 := rfl
  have hmantissa : nearestEven (scaled num den (quotientExponent num den)).1
      (scaled num den (quotientExponent num den)).2 = roundedMantissa num den := rfl
  rw [ofQuotient, if_neg (by omega)]
  simp only [hmantissa, hprecision]
  split <;> rfl

theorem two_pow_limit : (2 : ℚ) ^ 1024 = 2 ^ 53 * 2 ^ maxExponent := by
  rw [maxExponent, show (971 : Int) = (971 : Nat) from rfl, zpow_natCast, ← pow_add]

/-- With a mantissa that is not halved, the exponent tells whether a rounded value is too large. -/
theorem rounded_lt_limit_iff (hn : 0 < num) (hd : 0 < den)
    (hfull : roundedMantissa num den < 2 ^ 53) :
    rounded num den < 2 ^ 1024 ↔ quotientExponent num den ≤ maxExponent := by
  rw [two_pow_limit, rounded, value]
  constructor
  · intro hlt
    by_contra he
    have hlow := le_roundedMantissa hn hd (by
      have hmax : minExponent < maxExponent := by decide
      omega)
    have hlowq : (2 ^ 52 : ℚ) ≤ roundedMantissa num den := by exact_mod_cast hlow
    have hpow : (2 : ℚ) ^ (maxExponent + 1) ≤ 2 ^ quotientExponent num den :=
      zpow_le_zpow_right₀ one_le_two (by omega)
    refine absurd hlt (not_lt.2 ?_)
    calc (2 ^ 53 * 2 ^ maxExponent : ℚ) = 2 ^ 52 * 2 ^ (maxExponent + 1) := by
          rw [zpow_add₀ two_ne_zero, zpow_one]
          ring
      _ ≤ roundedMantissa num den * 2 ^ quotientExponent num den := by gcongr
  · intro he
    have hfullq : (roundedMantissa num den : ℚ) < 2 ^ 53 := by exact_mod_cast hfull
    have hpow : (2 : ℚ) ^ quotientExponent num den ≤ 2 ^ maxExponent :=
      zpow_le_zpow_right₀ one_le_two he
    exact mul_lt_mul hfullq hpow (by positivity) (by positivity)

/-- With a mantissa that is halved, the exponent is one greater. -/
theorem rounded_lt_limit_iff_of_eq (htop : roundedMantissa num den = 2 ^ 53) :
    rounded num den < 2 ^ 1024 ↔ quotientExponent num den + 1 ≤ maxExponent := by
  have hpos : (0 : ℚ) < 2 ^ 53 := by positivity
  rw [two_pow_limit, rounded, value, htop, Nat.cast_pow, Nat.cast_ofNat, mul_lt_mul_iff_right₀ hpos,
    zpow_lt_zpow_iff_right₀ one_lt_two, Int.add_one_le_iff]

/-- A quotient is rounded to a finite number unless its rounded value is too large for one. -/
theorem ofQuotient_cases (negative : Bool) (hn : 0 < num) (hd : 0 < den) :
    (rounded num den < 2 ^ 1024 ∧ ∃ m e, ofQuotient negative num den = finite negative m e ∧
        value m e = rounded num den) ∨
      2 ^ 1024 ≤ rounded num den ∧ ofQuotient negative num den = infinite negative := by
  rw [ofQuotient_eq negative hn]
  by_cases hfull : roundedMantissa num den < 2 ^ 53
  · have hiff := rounded_lt_limit_iff hn hd hfull
    rw [if_pos hfull]
    by_cases he : quotientExponent num den ≤ maxExponent
    · rw [if_pos he]
      exact .inl ⟨hiff.2 he, _, _, rfl, rfl⟩
    · rw [if_neg he]
      exact .inr ⟨not_lt.1 fun hlt => he (hiff.1 hlt), rfl⟩
  · have htop : roundedMantissa num den = 2 ^ 53 :=
      Nat.le_antisymm (roundedMantissa_le hn hd) (Nat.not_lt.1 hfull)
    have hiff := rounded_lt_limit_iff_of_eq htop
    rw [if_neg hfull]
    by_cases he : quotientExponent num den + 1 ≤ maxExponent
    · rw [if_pos he]
      refine .inl ⟨hiff.2 he, _, _, rfl, ?_⟩
      rw [rounded, htop, value, value, zpow_add₀ two_ne_zero, zpow_one]
      push_cast
      ring
    · rw [if_neg he]
      exact .inr ⟨not_lt.1 fun hlt => he (hiff.1 hlt), rfl⟩

/-- Where a quotient is rounded to a finite number, a smaller one is rounded to no greater one. -/
theorem ofQuotient_mono {negative : Bool} {m : Nat} {e : Int} (hd : 0 < den) (h : num' ≤ num)
    (hx : ofQuotient negative num den = finite negative m e) :
    ∃ m' e', ofQuotient negative num' den = finite negative m' e' ∧ value m' e' ≤ value m e := by
  rcases Nat.eq_zero_or_pos num' with rfl | hn
  · refine ⟨0, minExponent, if_pos rfl, ?_⟩
    rw [value, value, Nat.cast_zero, zero_mul]
    positivity
  · have hle := rounded_mono hn hd h
    rcases ofQuotient_cases negative (Nat.lt_of_lt_of_le hn h) hd with
      ⟨hlimit, m₁, e₁, heq, hvalue⟩ | ⟨-, heq⟩
    · rw [heq] at hx
      injection hx with _ hm he
      subst hm he
      rcases ofQuotient_cases negative hn hd with ⟨-, m', e', heq', hvalue'⟩ | ⟨hlarge, -⟩
      · exact ⟨m', e', heq', by rw [hvalue, hvalue']; exact hle⟩
      · exact absurd (hle.trans_lt hlimit) (not_lt.2 hlarge)
    · rw [heq] at hx
      cases hx

theorem two_zpow_of_le {base e : Int} (h : base ≤ e) :
    (2 : ℚ) ^ e = 2 ^ base * (twoPow (e - base).toNat : Nat) := by
  have hshift : ((e - base).toNat : Int) = e - base := Int.toNat_of_nonneg (by omega)
  rw [twoPow_eq, Nat.cast_pow, Nat.cast_ofNat, ← zpow_natCast, hshift, ← zpow_add₀ two_ne_zero]
  congr 1
  ring

/-- Numbers are compared by their values. -/
theorem lt_finite_iff {a b : Bool} {m n : Nat} {e f : Int} :
    lt (finite a m e) (finite b n f) = true ↔
      (signed a m : ℚ) * 2 ^ e < signed b n * 2 ^ f := by
  have hpos : (0 : ℚ) < 2 ^ min e f := by positivity
  rw [lt, decide_eq_true_eq, two_zpow_of_le (Int.min_le_left e f),
    two_zpow_of_le (Int.min_le_right e f), mul_left_comm, mul_left_comm (signed b n : ℚ),
    mul_lt_mul_iff_right₀ hpos]
  norm_cast

end Binary64

open Binary64

theorem Tenths.count_ofFinite_lt_iff {negative : Bool} {m : Nat} {e : Int} {n : Nat} :
    (ofFinite negative m e).count < n ↔ 20 * value m e + 1 < n * 2 := by
  have hpos : 0 < (scaled m 1 (-e)).2 := by
    rw [scaled]
    split
    · exact Nat.mul_pos Nat.one_pos (Nat.two_pow_pos _)
    · exact Nat.one_pos
  have hposq : (0 : ℚ) < (scaled m 1 (-e)).2 := by exact_mod_cast hpos
  have hvalue : 20 * value m e + 1 =
      (20 * (scaled m 1 (-e)).1 + (scaled m 1 (-e)).2) / (scaled m 1 (-e)).2 := by
    rw [add_div, div_self hposq.ne', mul_div_assoc, scaled_ratio, value, zpow_neg, Nat.cast_one,
      div_one, div_inv_eq_mul]
  have hcount : (ofFinite negative m e).count < n ↔
      20 * (scaled m 1 (-e)).1 + (scaled m 1 (-e)).2 < n * (2 * (scaled m 1 (-e)).2) :=
    Nat.div_lt_iff_lt_mul (Nat.mul_pos (by decide) hpos)
  rw [hvalue, div_lt_iff₀ hposq, hcount, mul_assoc]
  exact_mod_cast Iff.rfl

/-- A number has a text in tenths unless its value is too large. -/
theorem oneDecimal_eq_ok_iff {negative : Bool} {m : Nat} {e : Int} :
    (∃ shown, oneDecimal (finite negative m e) = .ok shown) ↔
      20 * value m e + 1 < 10 ^ 28 * 2 := by
  have hiff : 20 * value m e + 1 < 10 ^ 28 * 2 ↔
      (Tenths.ofFinite negative m e).count < tenPow Tenths.maxDigits := by
    rw [Tenths.count_ofFinite_lt_iff, tenPow, Tenths.maxDigits]
    norm_num
  rw [hiff, oneDecimal, Tenths.text?]
  split
  · next hlt => exact ⟨fun _ => hlt, fun _ => ⟨_, rfl⟩⟩
  · next hge =>
    constructor
    · rintro ⟨shown, h⟩
      cases h
    · intro hlt
      exact absurd hlt hge

namespace Binary64

theorem ofQuotient_finite_or_infinite (negative : Bool) (num den : Nat) :
    (∃ m e, ofQuotient negative num den = finite negative m e) ∨
      ofQuotient negative num den = infinite negative := by
  rcases Nat.eq_zero_or_pos num with rfl | hn
  · exact .inl ⟨0, minExponent, if_pos rfl⟩
  · rw [ofQuotient_eq negative hn]
    split
    · split
      · exact .inl ⟨_, _, rfl⟩
      · exact .inr rfl
    · split
      · exact .inl ⟨_, _, rfl⟩
      · exact .inr rfl

/-- What lies below a number lies below every greater one. -/
theorem lt_of_lt_of_value_le {c : Binary64} {m m' : Nat} {e e' : Int}
    (h : value m' e' ≤ value m e) (hlt : c.lt (finite false m' e') = true) :
    c.lt (finite false m e) = true := by
  cases c with
  | nan => cases hlt
  | infinite a => exact hlt
  | finite a n f =>
    rw [lt_finite_iff] at hlt ⊢
    exact hlt.trans_le h

theorem lt_infinite_of_lt {c x : Binary64} (hlt : c.lt x = true) :
    c.lt (infinite false) = true := by
  cases c with
  | nan => cases hlt
  | finite a n f => rfl
  | infinite a =>
    cases a with
    | true => rfl
    | false => cases x <;> cases hlt

section Quotients

variable {n n' m : Nat} {e : Int} (hm : 0 < m) (h : n' ≤ n)
include hm h

/-- Dividing less by a positive number gives no more, if the quotient is finite at all. -/
theorem divideNat_mono {k : Nat} {f : Int}
    (hx : divideNat n (finite false m e) = finite false k f) :
    ∃ k' f', divideNat n' (finite false m e) = finite false k' f' ∧ value k' f' ≤ value k f := by
  rw [divideNat_finite] at hx ⊢
  obtain ⟨hle, heq⟩ := scaled_mono h m e
  have hpos : 0 < (scaled n m e).2 := by
    rw [scaled]
    split
    · exact Nat.mul_pos hm (Nat.two_pow_pos _)
    · exact hm
  rw [heq]
  exact ofQuotient_mono hpos hle hx

theorem lt_divideNat_mono {c : Binary64} (hlt : c.lt (divideNat n' (finite false m e)) = true) :
    c.lt (divideNat n (finite false m e)) = true := by
  rcases ofQuotient_finite_or_infinite false (scaled n m e).1 (scaled n m e).2 with
    ⟨k, f, hx⟩ | hx
  · rw [← divideNat_finite] at hx
    obtain ⟨k', f', hx', hvalue⟩ := divideNat_mono hm h hx
    rw [hx'] at hlt
    rw [hx]
    exact lt_of_lt_of_value_le hvalue hlt
  · rw [← divideNat_finite] at hx
    rw [hx]
    exact lt_infinite_of_lt hlt

theorem oneDecimal_divideNat_mono
    (hok : ∃ shown, oneDecimal (divideNat n (finite false m e)) = .ok shown) :
    ∃ shown, oneDecimal (divideNat n' (finite false m e)) = .ok shown := by
  rcases ofQuotient_finite_or_infinite false (scaled n m e).1 (scaled n m e).2 with
    ⟨k, f, hx⟩ | hx
  · rw [← divideNat_finite] at hx
    obtain ⟨k', f', hx', hvalue⟩ := divideNat_mono hm h hx
    rw [hx, oneDecimal_eq_ok_iff] at hok
    rw [hx', oneDecimal_eq_ok_iff]
    linarith
  · rw [← divideNat_finite] at hx
    obtain ⟨shown, hok⟩ := hok
    rw [hx] at hok
    cases hok

end Quotients

end Binary64

namespace Entry

variable {rules : Rules} {e : Entry}

/-- A positive duration in seconds is not rounded to zero. -/
theorem seconds_pos (hpos : 0 < e.duration) {x : Binary64} (h : e.seconds = .ok x) :
    ∃ m k, 0 < m ∧ x = finite false m k := by
  have hsign : decide (e.duration < 0) = false := decide_eq_false (by omega)
  have hduration : 0 < e.duration.natAbs := by omega
  have hsize : -1000 ≤ magnitude e.duration.natAbs 1000 := by
    rw [magnitude, log2_thousand]
    omega
  rw [seconds, hsign] at h
  rcases ofQuotient_finite_or_infinite false e.duration.natAbs 1000 with ⟨m, k, heq⟩ | heq
  · rw [heq] at h
    injection h with h
    exact ⟨m, k, (magnitude_le_of_ofQuotient hduration (by decide) hsize heq).1, h.symm⟩
  · rw [heq] at h
    cases h

theorem readingSpeed_of_pos (hpos : 0 < e.duration) :
    e.readingSpeed = e.seconds.map (divideNat e.text.length) := by
  rw [readingSpeed, if_neg (by omega)]
  cases e.seconds <;> rfl

/-- A speed can be checked unless it is too great and cannot be shown. -/
theorem speedIssues_eq_ok_iff {speed : Binary64} (h : e.readingSpeed = .ok speed) :
    (∃ issues, e.speedIssues rules = .ok issues) ↔
      (rules.maxSpeed.lt speed = true → ∃ shown, oneDecimal speed = .ok shown) := by
  rw [speedIssues, h]
  simp only [bind, Except.bind]
  split
  · next hlt =>
    cases oneDecimal speed with
    | error failure => simp [hlt]
    | ok shown => simp [pure, Except.pure]
  · next hlt => simp [hlt, pure, Except.pure]

/-- A speed that can be checked can be checked for a shorter text. -/
theorem speedIssues_eq_ok_of_le {text : Text} (hlen : text.length ≤ e.text.length)
    (h : ∃ issues, e.speedIssues rules = .ok issues) :
    ∃ issues, ({ e with text } : Entry).speedIssues rules = .ok issues := by
  by_cases hpos : 0 < e.duration
  · have hspeed := readingSpeed_of_pos hpos
    have hspeed' : ({ e with text } : Entry).readingSpeed =
        e.seconds.map (divideNat text.length) := readingSpeed_of_pos (e := { e with text }) hpos
    cases hx : e.seconds with
    | error failure =>
      obtain ⟨issues, h⟩ := h
      rw [speedIssues, hspeed, hx] at h
      cases h
    | ok x =>
      obtain ⟨m, k, hm, rfl⟩ := seconds_pos hpos hx
      rw [hx] at hspeed hspeed'
      rw [speedIssues_eq_ok_iff hspeed] at h
      rw [speedIssues_eq_ok_iff hspeed']
      intro hlt
      exact oneDecimal_divideNat_mono hm hlen (h (lt_divideNat_mono hm hlen hlt))
  · -- Without a duration the speed is zero, whatever the text.
    have hstill : e.duration ≤ 0 := by omega
    have hspeed : e.readingSpeed = .ok .zero := if_pos hstill
    have hspeed' : ({ e with text } : Entry).readingSpeed = .ok .zero := if_pos hstill
    rw [speedIssues_eq_ok_iff hspeed] at h
    rw [speedIssues_eq_ok_iff hspeed']
    exact h

/-- A subtitle that can be checked can be checked with a shorter text. -/
theorem check_eq_ok_of_le {text : Text} {next? other? : Option Entry}
    (hlen : text.length ≤ e.text.length) (h : ∃ issues, e.check rules next? = .ok issues) :
    ∃ issues, ({ e with text } : Entry).check rules other? = .ok issues := by
  obtain ⟨hlong, hfast⟩ := check_eq_ok_iff.1 h
  exact check_eq_ok_iff.2 ⟨hlong, speedIssues_eq_ok_of_le hlen hfast⟩

end Entry

end CueCheck
