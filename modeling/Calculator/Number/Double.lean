import Calculator.Number.Decimal

/-!
# Doubles as multiples of the least positive one

Every finite double is an integral multiple of `2 ^ (-1074)`, and the bits of its magnitude, read as
a number, ascend with that multiple. `units` takes the bits to the multiple; `nearest` takes a
quotient of units to the bits of the double nearest to it, a tie going to the even significand and
everything beyond the largest double to infinity. A decimal is read by `nearest` from its exact
value.
-/

namespace Calculator

/-- The quotient rounded to the nearest natural number, a tie going to the even one. -/
def roundHalfEven (num den : Nat) : Nat :=
  if 2 * (num % den) < den then num / den
  else if den < 2 * (num % den) then num / den + 1
  else num / den + num / den % 2

theorem roundHalfEven_mul (q : Nat) {den : Nat} (h : 0 < den) :
    roundHalfEven (q * den) den = q := by
  simp [roundHalfEven, Nat.mul_div_cancel q h, h]

theorem roundHalfEven_mul_mul (num den : Nat) {k : Nat} (h : 0 < k) :
    roundHalfEven (num * k) (den * k) = roundHalfEven num den := by
  unfold roundHalfEven
  rw [Nat.mul_div_mul_right _ _ h, Nat.mul_mod_mul_right, ← Nat.mul_assoc]
  simp only [Nat.mul_lt_mul_right h]

namespace Double

/-- The least positive double is `2 ^ (-leastBit)`. -/
def leastBit : Nat := 1074

/-- One in multiples of the least positive double. -/
def unit : Nat := 2 ^ leastBit

def infinityBits : Nat := 2047 * 2 ^ 52

/-- The bits of the magnitude, as a number. -/
def magnitude (x : Float) : Nat := x.toBits.toNat % 2 ^ 63

/-- A set sign bit; a NaN has none. -/
def isNegative (x : Float) : Bool := decide (2 ^ 63 ≤ x.toBits.toNat)

/-- The non-negative double with the given bits. -/
def ofMagnitude (bits : Nat) : Float := Float.ofBits (UInt64.ofNat bits)

def infinity : Float := ofMagnitude infinityBits

def nan : Float := ofMagnitude (infinityBits + 2 ^ 51)

/-- The magnitude with the sign bit of `x`. -/
def withSignOf (x : Float) (bits : Nat) : Float :=
  if isNegative x then -ofMagnitude bits else ofMagnitude bits

/-- The power of two by which a significand is to be multiplied. -/
def scale (bits : Nat) : Nat := bits / 2 ^ 52 - 1

def significand (bits : Nat) : Nat := bits - scale bits * 2 ^ 52

/-- The finite magnitude with the given bits, in multiples of the least positive double. -/
def units (bits : Nat) : Nat := significand bits * 2 ^ scale bits

/-- The scale of the doubles next to `num / den` units. -/
def scaleOf (num den : Nat) : Nat := (num / den).log2 - 52

/-- The bits of the magnitude nearest to `num / den` units. -/
def nearest (num den : Nat) : Nat :=
  min (scaleOf num den * 2 ^ 52 + roundHalfEven num (den * 2 ^ scaleOf num den)) infinityBits

theorem scale_mul_add_significand (bits : Nat) : scale bits * 2 ^ 52 + significand bits = bits := by
  unfold significand scale
  omega

theorem log2_significand {bits : Nat} (h : 2 ^ 52 ≤ bits) : (significand bits).log2 = 52 := by
  unfold significand scale
  exact (Nat.log2_eq_iff (by omega)).2 (by constructor <;> omega)

theorem scaleOf_units (bits : Nat) : scaleOf (units bits) 1 = scale bits := by
  unfold scaleOf
  rw [Nat.div_one]
  by_cases h : 2 ^ 52 ≤ bits
  · have hs : significand bits ≠ 0 := by
      unfold significand scale
      omega
    have hu : units bits ≠ 0 := Nat.mul_ne_zero hs (Nat.ne_of_gt (Nat.two_pow_pos _))
    have hb := (Nat.log2_eq_iff hs).1 (log2_significand h)
    have hlog : (units bits).log2 = 52 + scale bits := by
      refine (Nat.log2_eq_iff hu).2 ⟨?_, ?_⟩
      · rw [Nat.pow_add]
        exact Nat.mul_le_mul_right _ hb.1
      · rw [Nat.add_right_comm, Nat.pow_add]
        exact Nat.mul_lt_mul_of_pos_right hb.2 (Nat.two_pow_pos _)
    omega
  · have hz : scale bits = 0 := by
      unfold scale
      omega
    have hu : units bits = bits := by
      unfold units significand
      rw [hz, Nat.zero_mul, Nat.pow_zero, Nat.mul_one, Nat.sub_zero]
    rw [hu, hz]
    by_cases h0 : bits = 0
    · subst bits
      rfl
    · have hlt : bits.log2 < 52 := (Nat.log2_lt h0).2 (by omega)
      omega

/-- A finite magnitude is the one nearest to its own units. -/
theorem nearest_units {bits : Nat} (h : bits < infinityBits) : nearest (units bits) 1 = bits := by
  unfold nearest
  rw [scaleOf_units, Nat.one_mul]
  unfold units
  rw [roundHalfEven_mul _ (Nat.two_pow_pos _), scale_mul_add_significand,
    Nat.min_eq_left (Nat.le_of_lt h)]

/-- Only the quotient of units counts. -/
theorem nearest_mul_mul (num : Nat) {den k : Nat} (hk : 0 < k) :
    nearest (num * k) (den * k) = nearest num den := by
  have hscale : scaleOf (num * k) (den * k) = scaleOf num den := by
    unfold scaleOf
    rw [Nat.mul_div_mul_right _ _ hk]
  unfold nearest
  rw [hscale, Nat.mul_right_comm, roundHalfEven_mul_mul _ _ hk]

theorem units_lt {bits : Nat} (h : bits < infinityBits) : units bits < 2 ^ (leastBit + 1024) := by
  have hs : significand bits < 2 ^ 53 := by
    unfold significand scale
    omega
  have he : scale bits ≤ 2045 := by
    unfold infinityBits at h
    unfold scale
    omega
  calc
    units bits < 2 ^ 53 * 2 ^ scale bits := Nat.mul_lt_mul_of_pos_right hs (Nat.two_pow_pos _)
    _ = 2 ^ (53 + scale bits) := (Nat.pow_add 2 53 _).symm
    _ ≤ 2 ^ (leastBit + 1024) := Nat.pow_le_pow_right (by decide) (by unfold leastBit; omega)

theorem eq_zero_of_units {bits : Nat} (h : units bits = 0) : bits = 0 := by
  have hs : significand bits = 0 :=
    (Nat.mul_eq_zero.1 h).resolve_right (Nat.ne_of_gt (Nat.two_pow_pos _))
  unfold significand scale at hs
  omega

end Double

namespace Decimal

/-- The bits of the double nearest to a decimal. A decimal in lowest terms with an exponent above
400 exceeds the largest double, and one below `2 ^ (-1076)` is nearest to zero. -/
def magnitude (d : Decimal) : Nat :=
  if 400 < d.exponent then Double.infinityBits
  else if d.coefficient.log2 + 1 + 3 * d.exponent ≤ -1076 then 0
  else Double.nearest (d.coefficient * 10 ^ d.exponent.toNat * Double.unit)
    (10 ^ (-d.exponent).toNat)

def toFloat (d : Decimal) : Float := Double.ofMagnitude d.magnitude

open Double

/-- A decimal with as many units as a finite double is read as that double. -/
theorem magnitude_eq_of_units {d : Decimal} {bits : Nat} (hb : bits < infinityBits)
    (h : d.coefficient * 10 ^ d.exponent.toNat * unit =
      units bits * 10 ^ (-d.exponent).toNat) :
    d.magnitude = bits := by
  have hlarge : ¬ 400 < d.exponent := by
    intro he
    have hc : 0 < d.coefficient := by
      rcases d.reduced with hr | ⟨_, hr⟩ <;> omega
    have hneg : (-d.exponent).toNat = 0 := by omega
    rw [hneg, Nat.pow_zero, Nat.mul_one] at h
    have hle : 2 ^ (3 * d.exponent.toNat + leastBit) ≤ units bits := by
      rw [← h, Nat.pow_add, Nat.pow_mul, unit]
      exact Nat.mul_le_mul_right _
        (Nat.le_trans (Nat.pow_le_pow_left (by decide) _) (Nat.le_mul_of_pos_left _ hc))
    have hlt := (Nat.pow_lt_pow_iff_right (by decide)).1 (Nat.lt_of_le_of_lt hle (units_lt hb))
    unfold leastBit at hlt
    omega
  unfold magnitude
  rw [if_neg hlarge]
  split
  · next hsmall =>
    symm
    apply eq_zero_of_units
    have hpos : d.exponent.toNat = 0 := by omega
    rw [hpos, Nat.pow_zero, Nat.mul_one] at h
    apply Nat.eq_zero_of_not_pos
    intro hu
    have hc : d.coefficient < 2 ^ (d.coefficient.log2 + 1) := Nat.lt_log2_self
    have hlow : 8 ^ (-d.exponent).toNat ≤ d.coefficient * unit := by
      rw [h]
      exact Nat.le_trans (Nat.pow_le_pow_left (by decide) _) (Nat.le_mul_of_pos_left _ hu)
    have hhigh : d.coefficient * unit < 2 ^ (d.coefficient.log2 + 1) * 2 ^ leastBit :=
      Nat.mul_lt_mul_of_pos_right hc (Nat.two_pow_pos _)
    rw [← Nat.pow_add] at hhigh
    have hmid : 2 ^ (d.coefficient.log2 + 1 + leastBit) ≤ 8 ^ (-d.exponent).toNat := by
      rw [show (8 : Nat) = 2 ^ 3 from rfl, ← Nat.pow_mul]
      exact Nat.pow_le_pow_right (by decide) (by unfold leastBit; omega)
    exact absurd (Nat.le_trans hmid hlow) (Nat.not_le.2 hhigh)
  · have hk : 0 < 10 ^ (-d.exponent).toNat := Nat.pow_pos (by decide)
    have hn : nearest (units bits * 10 ^ (-d.exponent).toNat) (1 * 10 ^ (-d.exponent).toNat) =
        nearest (units bits) 1 := nearest_mul_mul _ hk
    rw [Nat.one_mul, nearest_units hb] at hn
    rw [h, hn]

end Decimal
end Calculator
