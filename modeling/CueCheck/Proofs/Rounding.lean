import CueCheck.Tenths
import Mathlib.Algebra.Order.Ring.Int

/-!
Sizes of rounded quotients: the exponent of a quotient lies near the difference of the logarithms,
and numbers of moderate size have a text in tenths.
-/

namespace CueCheck

theorem twoPow_eq (n : Nat) : twoPow n = 2 ^ n := rfl

theorem div_le_nearestEven (num den : Nat) : num / den ≤ nearestEven num den := by
  rw [nearestEven]
  split
  · exact Nat.le_refl _
  · split
    · exact Nat.le_succ _
    · split
      · exact Nat.le_refl _
      · exact Nat.le_succ _

theorem log2_mul_two_pow {n : Nat} (hn : 0 < n) (k : Nat) : (n * 2 ^ k).log2 = n.log2 + k := by
  have hpos : 0 < n * 2 ^ k := Nat.mul_pos hn (Nat.two_pow_pos k)
  rw [Nat.log2_eq_iff (by omega), Nat.pow_add, Nat.add_right_comm, Nat.pow_add]
  exact ⟨Nat.mul_le_mul_right _ (Nat.log2_self_le (by omega)),
    Nat.mul_lt_mul_of_pos_right Nat.lt_log2_self (Nat.two_pow_pos k)⟩

/-- A quotient has at least as many bits as its numerator has more than its denominator. -/
theorem two_pow_le_div {num den k : Nat} (hn : 0 < num) (hd : 0 < den)
    (h : den.log2 + k + 1 ≤ num.log2) : 2 ^ k ≤ num / den := by
  have hden : den ≤ 2 ^ (den.log2 + 1) := Nat.le_of_lt Nat.lt_log2_self
  rw [Nat.le_div_iff_mul_le hd]
  calc 2 ^ k * den ≤ 2 ^ k * 2 ^ (den.log2 + 1) := Nat.mul_le_mul_left _ hden
    _ = 2 ^ (den.log2 + k + 1) := by rw [← Nat.pow_add]; congr 1; omega
    _ ≤ 2 ^ num.log2 := Nat.pow_le_pow_right (by decide) h
    _ ≤ num := Nat.log2_self_le (by omega)

namespace Binary64

section Scaled

variable {num den : Nat}

theorem scaled_pos (hn : 0 < num) (hd : 0 < den) (e : Int) :
    0 < (scaled num den e).1 ∧ 0 < (scaled num den e).2 := by
  rw [scaled]
  split
  · exact ⟨hn, Nat.mul_pos hd (Nat.two_pow_pos _)⟩
  · exact ⟨Nat.mul_pos hn (Nat.two_pow_pos _), hd⟩

/-- Scaling shifts the difference of the logarithms by the exponent. -/
theorem log2_scaled (hn : 0 < num) (hd : 0 < den) (e : Int) :
    ((scaled num den e).1.log2 : Int) - (scaled num den e).2.log2 =
      num.log2 - den.log2 - e := by
  rw [scaled]
  split
  · rw [twoPow_eq]
    dsimp only
    rw [log2_mul_two_pow hd]
    omega
  · rw [twoPow_eq]
    dsimp only
    rw [log2_mul_two_pow hn]
    omega

end Scaled

/-- The difference of the logarithms of a numerator and a denominator. -/
def magnitude (num den : Nat) : Int := num.log2 - den.log2

theorem quotientExponent_cases (num den : Nat) :
    quotientExponent num den = max minExponent (magnitude num den - 53) ∨
      quotientExponent num den = max minExponent (magnitude num den - 52) := by
  rw [quotientExponent]
  dsimp only
  split
  · exact .inl rfl
  · refine .inr (congrArg (max minExponent) ?_)
    rw [magnitude, precision]
    omega

/-- The number is finite, with a mantissa that fits and an exponent up to a bound. -/
def UpTo (bound : Int) : Binary64 → Prop
  | finite _ mantissa exponent => mantissa < twoPow precision ∧ exponent ≤ bound
  | infinite _ | nan => False

theorem UpTo.eq_finite {bound : Int} {x : Binary64} (h : x.UpTo bound) :
    ∃ negative mantissa exponent, x = finite negative mantissa exponent ∧
      mantissa < twoPow precision ∧ exponent ≤ bound := by
  cases x with
  | finite neg m e => exact ⟨neg, m, e, rfl, h.1, h.2⟩
  | infinite neg => exact h.elim
  | nan => exact h.elim

theorem upTo_ofQuotient (negative : Bool) {num den : Nat} {bound : Int} (hb : bound ≤ maxExponent)
    (hmin : minExponent < bound) (h : magnitude num den - 51 ≤ bound) :
    (ofQuotient negative num den).UpTo bound := by
  have hq := quotientExponent_cases num den
  rw [ofQuotient]
  split
  · exact ⟨by decide, by omega⟩
  · dsimp only
    split
    · next hm =>
      rw [if_pos (by omega)]
      exact ⟨hm, by omega⟩
    · rw [if_pos (by omega)]
      exact ⟨(by decide : twoPow (precision - 1) < twoPow precision), by omega⟩

/-- A quotient that is not tiny keeps its size when it is rounded. -/
theorem magnitude_le_of_ofQuotient {negative sign : Bool} {num den m : Nat} {e : Int}
    (hn : 0 < num) (hd : 0 < den) (hsize : -1000 ≤ magnitude num den)
    (h : ofQuotient negative num den = finite sign m e) :
    0 < m ∧ magnitude num den - 1 ≤ m.log2 + e := by
  have hmin : minExponent = -1074 := rfl
  have hq := quotientExponent_cases num den
  have hpos := scaled_pos hn hd (quotientExponent num den)
  have hlog := log2_scaled hn hd (quotientExponent num den)
  rw [ofQuotient, if_neg (by omega)] at h
  dsimp only at h
  split at h
  · split at h
    · injection h with _ hm he
      have hdiff : (scaled num den (quotientExponent num den)).2.log2 +
          ((scaled num den (quotientExponent num den)).1.log2 -
            (scaled num den (quotientExponent num den)).2.log2 - 1) + 1 ≤
          (scaled num den (quotientExponent num den)).1.log2 := by
        rw [magnitude] at hq hsize
        omega
      have hle := Nat.le_trans (two_pow_le_div hpos.1 hpos.2 hdiff) (div_le_nearestEven _ _)
      dsimp only at hm he
      rw [hm] at hle
      have hm0 : 0 < m := Nat.lt_of_lt_of_le (Nat.two_pow_pos _) hle
      have hmlog := (Nat.le_log2 (by omega)).2 hle
      refine ⟨hm0, ?_⟩
      rw [magnitude] at hq hsize ⊢
      omega
    · cases h
  · split at h
    · -- Rounding went up to a power of two.
      injection h with _ hm he
      have hmlog : m.log2 = 52 := by
        rw [← hm]
        exact Nat.log2_two_pow
      have hm0 : 0 < m := by
        rw [← hm]
        exact Nat.two_pow_pos _
      refine ⟨hm0, ?_⟩
      dsimp only at he
      omega
    · cases h

/-- Dividing by a number is dividing by its mantissa and scaling. -/
theorem divideNat_finite (n m : Nat) (negative : Bool) (e : Int) :
    divideNat n (finite negative m e) =
      ofQuotient negative (scaled n m e).1 (scaled n m e).2 := by
  rw [divideNat, scaled]
  split <;> rfl

/-- A quotient by a number has about the magnitude of the dividend less that of the number. -/
theorem upTo_divideNat {n m : Nat} {negative : Bool} {e bound : Int} (hm : 0 < m)
    (hb : bound ≤ maxExponent) (hmin : minExponent < bound)
    (h : n.log2 - (m.log2 + e) - 51 ≤ bound) : (divideNat n (finite negative m e)).UpTo bound := by
  rw [divideNat_finite]
  by_cases hn : n = 0
  · have hzero : (scaled n m e).1 = 0 := by
      rw [hn, scaled]
      split <;> simp
    rw [hzero]
    exact ⟨by decide, by omega⟩
  · have hlog := log2_scaled (by omega : 0 < n) hm e
    apply upTo_ofQuotient _ hb hmin
    rw [magnitude]
    omega

end Binary64

open Binary64

theorem Tenths.count_ofFinite_lt (negative : Bool) {m : Nat} {e : Int}
    (hm : m < twoPow precision) (he : e ≤ 33) :
    (ofFinite negative m e).count < tenPow maxDigits := by
  obtain ⟨hnum, hden⟩ :
      (scaled m 1 (-e)).1 ≤ 2 ^ 53 * 2 ^ 33 ∧ 0 < (scaled m 1 (-e)).2 := by
    rw [scaled]
    split
    · exact ⟨Nat.le_trans (Nat.le_of_lt hm) (Nat.le_mul_of_pos_right _ (by decide)),
        Nat.mul_pos (by decide) (Nat.two_pow_pos _)⟩
    · refine ⟨Nat.mul_le_mul (Nat.le_of_lt hm) (Nat.pow_le_pow_right (by decide) ?_),
        Nat.one_pos⟩
      omega
  have hcount : (ofFinite negative m e).count =
      (20 * (scaled m 1 (-e)).1 + (scaled m 1 (-e)).2) / (2 * (scaled m 1 (-e)).2) := rfl
  have hlimit : tenPow maxDigits = 10 ^ 28 := rfl
  rw [hcount, hlimit, Nat.div_lt_iff_lt_mul (by omega)]
  omega

theorem oneDecimal_eq_ok {x : Binary64} (h : x.UpTo 33) : ∃ shown, oneDecimal x = .ok shown := by
  obtain ⟨neg, m, e, rfl, hm, he⟩ := h.eq_finite
  rw [oneDecimal, Tenths.text?, if_pos (Tenths.count_ofFinite_lt neg hm he)]
  exact ⟨_, rfl⟩

end CueCheck
