import Mathlib
import Calculator.Number.Places
import Calculator.Proofs.Number.Fields

/-!
# Rounding beyond the largest double

A quotient of units is nearest to infinity from the midpoint above the largest double on. So a
double cannot be rounded to some decimal places exactly if the multiple it is rounded to lies there.
Rounding moves a double by at most half of `10 ^ (-places)`, which is not as far as the midpoint
unless 293 digits before the point or more are given up; when more than 308 are, zero is left.
-/

namespace Calculator

section RoundHalfEven

variable {num den n : Nat}

theorem roundHalfEven_le (h : 2 * num < (2 * n + 1) * den) : roundHalfEven num den ≤ n := by
  have hnum := Nat.div_add_mod num den
  have hle : num / den ≤ n := by
    by_contra hlt
    have hmul : den * (n + 1) ≤ den * (num / den) := Nat.mul_le_mul_left den (by omega)
    have hexpand : (2 * n + 1) * den + den = 2 * (den * (n + 1)) := by ring
    omega
  unfold roundHalfEven
  rcases Nat.lt_or_eq_of_le hle with hlt | rfl
  · split_ifs <;> omega
  · have hexpand : (2 * (num / den) + 1) * den = 2 * (den * (num / den)) + den := by ring
    rw [if_pos (by omega)]

theorem le_roundHalfEven (hden : 0 < den) (h : n * den ≤ num) : n ≤ roundHalfEven num den := by
  have hle : n ≤ num / den := (Nat.le_div_iff_mul_le hden).2 h
  unfold roundHalfEven
  split_ifs <;> omega

/-- The tie above an odd number is rounded up. -/
theorem lt_roundHalfEven (hden : 0 < den) (hn : n % 2 = 1) (h : (2 * n + 1) * den ≤ 2 * num) :
    n < roundHalfEven num den := by
  have hnum := Nat.div_add_mod num den
  have hle : n ≤ num / den := by
    refine (Nat.le_div_iff_mul_le hden).2 ?_
    have hexpand : (2 * n + 1) * den = 2 * (n * den) + den := by ring
    omega
  unfold roundHalfEven
  rcases Nat.lt_or_eq_of_le hle with hlt | heq
  · split_ifs <;> omega
  · subst heq
    have hexpand : (2 * (num / den) + 1) * den = 2 * (den * (num / den)) + den := by ring
    rw [if_neg (by omega)]
    split_ifs <;> omega

theorem two_mul_roundHalfEven_mul_le (num den : Nat) :
    2 * roundHalfEven num den * den ≤ 2 * num + den := by
  have hnum := Nat.div_add_mod num den
  have hexpand (k : Nat) : 2 * (num / den + k) * den = 2 * (den * (num / den)) + 2 * k * den := by
    ring
  unfold roundHalfEven
  split_ifs with hlow hhigh
  · have := hexpand 0
    simp only [Nat.add_zero, Nat.mul_zero, Nat.zero_mul] at this
    omega
  · have := hexpand 1
    omega
  · have := hexpand (num / den % 2)
    have hbit : 2 * (num / den % 2) * den ≤ 2 * 1 * den :=
      Nat.mul_le_mul_right den (by omega)
    omega

end RoundHalfEven

namespace Double

variable {num den : Nat}

theorem lt_scaleOf (num : Nat) (hden : 0 < den) : num < 2 ^ 53 * 2 ^ scaleOf num den * den := by
  have hscale : (num / den).log2 + 1 ≤ 53 + scaleOf num den := by
    unfold scaleOf
    omega
  refine (Nat.div_lt_iff_lt_mul hden).1 (Nat.lt_of_lt_of_le Nat.lt_log2_self ?_)
  rw [← Nat.pow_add]
  exact Nat.pow_le_pow_right (by decide) hscale

theorem le_scaleOf (hden : 0 < den) (h : 0 < scaleOf num den) :
    2 ^ 52 * 2 ^ scaleOf num den * den ≤ num := by
  have hne : num / den ≠ 0 := by
    intro h0
    rw [scaleOf, h0] at h
    exact absurd h (by decide)
  have hlog : 52 + scaleOf num den = (num / den).log2 := by
    unfold scaleOf at h ⊢
    omega
  refine (Nat.le_div_iff_mul_le hden).1 ?_
  rw [← Nat.pow_add, hlog]
  exact Nat.log2_self_le hne

/-- The largest double, in multiples of the least positive one. -/
def largestUnits : Nat := (2 ^ 53 - 1) * 2 ^ 2045

/-- The midpoint above the largest double. -/
def overflowUnits : Nat := (2 ^ 54 - 1) * 2 ^ 2044

theorem lt_overflowUnits : 2 ^ 53 * 2 ^ 2044 < overflowUnits := by decide +kernel

theorem overflowUnits_lt : overflowUnits < 2 ^ 52 * 2 ^ 2046 := by decide +kernel

/-- The significand of the largest double is the odd number `2 ^ 53 - 1`. -/
theorem two_mul_overflowUnits : 2 * overflowUnits = (2 * (2 ^ 53 - 1) + 1) * 2 ^ 2045 := by
  decide +kernel

/-- A quotient is nearest to infinity from the midpoint on. -/
theorem nearest_eq_infinityBits_iff (hden : 0 < den) :
    nearest num den = infinityBits ↔ overflowUnits * den ≤ num := by
  have hunit : 0 < den * 2 ^ scaleOf num den := Nat.mul_pos hden (Nat.two_pow_pos _)
  have hlt := lt_scaleOf num hden
  have hround : roundHalfEven num (den * 2 ^ scaleOf num den) ≤ 2 ^ 53 :=
    roundHalfEven_le (by rw [Nat.mul_assoc, Nat.mul_comm _ den] at hlt; omega)
  rw [nearest, min_eq_right_iff, infinityBits]
  rcases Nat.lt_trichotomy (scaleOf num den) 2045 with hlow | hmid | hhigh
  · have hscale : scaleOf num den ≤ 2044 := by omega
    have hpow := Nat.mul_le_mul_left (2 ^ 53) (Nat.pow_le_pow_right (by decide : 0 < 2) hscale)
    have hnum := Nat.lt_of_lt_of_le hlt
      (Nat.mul_le_mul_right den (Nat.le_trans hpow (Nat.le_of_lt lt_overflowUnits)))
    exact iff_of_false (by omega) (Nat.not_le.2 hnum)
  · have hcarry : 2047 * 2 ^ 52 ≤
        scaleOf num den * 2 ^ 52 + roundHalfEven num (den * 2 ^ scaleOf num den) ↔
        2 ^ 53 - 1 < roundHalfEven num (den * 2 ^ scaleOf num den) := by
      omega
    have hdouble : 2 * overflowUnits = (2 * (2 ^ 53 - 1) + 1) * 2 ^ scaleOf num den := by
      rw [hmid]
      exact two_mul_overflowUnits
    have htie : (2 * (2 ^ 53 - 1) + 1) * (den * 2 ^ scaleOf num den) =
        2 * (overflowUnits * den) := by
      rw [← Nat.mul_assoc 2, hdouble, Nat.mul_assoc, Nat.mul_comm den]
    rw [hcarry]
    constructor
    · intro hlt
      by_contra hnum
      refine Nat.not_le.2 hlt (roundHalfEven_le ?_)
      rw [htie]
      exact Nat.mul_lt_mul_of_pos_left (Nat.not_le.1 hnum) Nat.two_pos
    · intro hnum
      refine lt_roundHalfEven hunit (by decide) ?_
      rw [htie]
      exact Nat.mul_le_mul_left 2 hnum
  · have hscale : 2046 ≤ scaleOf num den := by omega
    have hnum := le_scaleOf hden (Nat.lt_of_lt_of_le (by decide) hscale)
    have hpow := Nat.mul_le_mul_left (2 ^ 52) (Nat.pow_le_pow_right (by decide : 0 < 2) hscale)
    have hle := Nat.mul_le_mul_right den (Nat.le_trans (Nat.le_of_lt overflowUnits_lt) hpow)
    have hround : 2 ^ 52 ≤ roundHalfEven num (den * 2 ^ scaleOf num den) := by
      rw [Nat.mul_assoc, Nat.mul_comm _ den] at hnum
      exact le_roundHalfEven hunit hnum
    exact iff_of_true (by omega) (Nat.le_trans hle hnum)

end Double

namespace Decimal

open Double

theorem magnitude_eq_infinityBits_iff (d : Decimal) :
    d.magnitude = infinityBits ↔
      overflowUnits * 10 ^ (-d.exponent).toNat ≤
        d.coefficient * 10 ^ d.exponent.toNat * unit := by
  unfold magnitude
  split_ifs with hlarge hsmall
  · have hc : 0 < d.coefficient := by
      rcases d.reduced with hr | ⟨_, hr⟩ <;> omega
    have hneg : (-d.exponent).toNat = 0 := by omega
    have hexp : 400 ≤ d.exponent.toNat := by omega
    have hpow := Nat.le_trans (Nat.pow_le_pow_right (by decide : 0 < 10) hexp)
      (Nat.le_mul_of_pos_left _ hc)
    refine iff_of_true rfl ?_
    rw [hneg, Nat.pow_zero, Nat.mul_one]
    exact Nat.le_trans (by decide +kernel) (Nat.mul_le_mul_right unit hpow)
  · have hpos : d.exponent.toNat = 0 := by omega
    have hc : d.coefficient < 2 ^ (d.coefficient.log2 + 1) := Nat.lt_log2_self
    refine iff_of_false (by decide) (Nat.not_le.2 ?_)
    rw [hpos, Nat.pow_zero, Nat.mul_one]
    calc
      d.coefficient * unit < 2 ^ (d.coefficient.log2 + 1) * 2 ^ leastBit :=
        Nat.mul_lt_mul_of_pos_right hc (Nat.two_pow_pos _)
      _ = 2 ^ (d.coefficient.log2 + 1 + leastBit) := (Nat.pow_add 2 _ _).symm
      _ ≤ 2 ^ (3 * (-d.exponent).toNat) :=
        Nat.pow_le_pow_right (by decide) (by unfold leastBit; omega)
      _ = 8 ^ (-d.exponent).toNat := Nat.pow_mul 2 3 _
      _ ≤ 10 ^ (-d.exponent).toNat := Nat.pow_le_pow_left (by decide) _
      _ ≤ overflowUnits * 10 ^ (-d.exponent).toNat :=
        Nat.le_mul_of_pos_left _ (by decide +kernel)
  · exact nearest_eq_infinityBits_iff (Nat.pow_pos (by decide))

/-- Moving zeros into the exponent changes both sides of the comparison alike. -/
theorem magnitude_of_eq_infinityBits_iff (c : Nat) (e : Int) :
    (of c e).magnitude = infinityBits ↔
      overflowUnits * 10 ^ (-e).toNat ≤ c * 10 ^ e.toNat * unit := by
  rw [magnitude_eq_infinityBits_iff]
  by_cases hc : c = 0
  · subst hc
    have hpos : 0 < overflowUnits := by decide +kernel
    rw [of_zero]
    simp only [Nat.zero_mul, Nat.le_zero, Nat.mul_eq_zero, Nat.pow_eq_zero]
    omega
  · obtain ⟨k, hk, hck⟩ := exists_of_eq e hc
    generalize of c e = d at hk hck ⊢
    subst hck
    have hexp : d.exponent.toNat + (-e).toNat = k + e.toNat + (-d.exponent).toNat := by omega
    have hleft : overflowUnits * 10 ^ (-d.exponent).toNat * 10 ^ (-e).toNat =
        overflowUnits * 10 ^ (-e).toNat * 10 ^ (-d.exponent).toNat := Nat.mul_right_comm _ _ _
    have hright : d.coefficient * 10 ^ d.exponent.toNat * unit * 10 ^ (-e).toNat =
        d.coefficient * 10 ^ k * 10 ^ e.toNat * unit * 10 ^ (-d.exponent).toNat := by
      calc
        _ = d.coefficient * unit * 10 ^ (d.exponent.toNat + (-e).toNat) := by ring
        _ = _ := by
          rw [hexp]
          ring
    rw [← Nat.mul_le_mul_right_iff (Nat.pow_pos (by decide : 0 < 10)), hleft, hright,
      Nat.mul_le_mul_right_iff (Nat.pow_pos (by decide))]

end Decimal

namespace Double

theorem units_le {bits : Nat} (h : bits < infinityBits) : units bits ≤ largestUnits := by
  have hs : significand bits ≤ 2 ^ 53 - 1 := by
    unfold significand scale
    omega
  have he : scale bits ≤ 2045 := by
    unfold infinityBits at h
    unfold scale
    omega
  have hmul := Nat.mul_le_mul hs (Nat.pow_le_pow_right (by decide : 0 < 2) he)
  simpa only [units, largestUnits] using hmul

variable {n : Int}

/-- A double cannot be rounded exactly if what it is rounded to lies beyond the midpoint above the
largest double. -/
theorem round?_eq_none_iff (x : Float) :
    round? n x = none ↔ x.isFinite = true ∧ -308 ≤ n ∧ n ≤ 323 ∧
      overflowUnits * 10 ^ n.toNat ≤
        roundHalfEven (units (magnitude x) * 10 ^ n.toNat) (unit * 10 ^ (-n).toNat) *
          10 ^ (-n).toNat * unit := by
  have hoverflow := Decimal.magnitude_of_eq_infinityBits_iff
    (roundHalfEven (units (magnitude x) * 10 ^ n.toNat) (unit * 10 ^ (-n).toNat)) (-n)
  rw [Int.neg_neg] at hoverflow
  rw [← hoverflow, round?]
  cases hx : x.isFinite with
  | false => simp
  | true =>
    by_cases hhigh : 323 < n
    · simp [hhigh, Int.not_le.2 hhigh]
    by_cases hlow : n < -308
    · simp [hhigh, hlow, Int.not_le.2 hlow]
    · simp [hhigh, hlow, Int.not_lt.1 hhigh, Int.not_lt.1 hlow]

/-- Giving up at most 292 digits before the point moves no double as far as that midpoint, and
giving up more than 308 leaves a zero. -/
theorem round?_ne_none (h : n < -308 ∨ -293 < n) (x : Float) : round? n x ≠ none := by
  intro hnone
  obtain ⟨hx, hlow, -, hover⟩ := (round?_eq_none_iff x).1 hnone
  have hmoved := two_mul_roundHalfEven_mul_le (units (magnitude x) * 10 ^ n.toNat)
    (unit * 10 ^ (-n).toNat)
  have hregroup (m : Nat) :
      2 * m * (unit * 10 ^ (-n).toNat) = 2 * (m * 10 ^ (-n).toNat * unit) := by ring
  have hunits : units (magnitude x) * 10 ^ n.toNat ≤ largestUnits * 10 ^ n.toNat :=
    Nat.mul_le_mul_right _ (units_le (magnitude_lt hx))
  have hgap : 2 * (overflowUnits - largestUnits) * 10 ^ n.toNat ≤ unit * 10 ^ (-n).toNat := by
    rw [hregroup] at hmoved
    rw [Nat.mul_assoc, Nat.sub_mul]
    omega
  have hsmall : unit * 10 ^ (-n).toNat < 2 * (overflowUnits - largestUnits) := by
    calc
      unit * 10 ^ (-n).toNat ≤ unit * 10 ^ 292 :=
        Nat.mul_le_mul_left unit (Nat.pow_le_pow_right (by decide) (by omega))
      _ < 2 * (overflowUnits - largestUnits) := by decide +kernel
  have hpos : 0 < 10 ^ n.toNat := Nat.pow_pos (by decide)
  have hlarge := Nat.le_mul_of_pos_right (2 * (overflowUnits - largestUnits)) hpos
  omega

/-- The bound is the least possible one. -/
example : round? (-293) (ofMagnitude (infinityBits - 1)) = none := by decide +kernel

end Double
end Calculator
