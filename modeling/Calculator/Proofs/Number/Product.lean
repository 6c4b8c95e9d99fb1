import Calculator.Proofs.Number.Fields

/-!
# Products of large doubles

A double that is at least one is positive infinity, or a significand of 53 bits times a power of two
not below `2 ^ (-52)`. Rounding keeps this form: a product of two such significands has more than 53
bits, so it is cut to 53 of them and carries into the exponent at most once. Hence products of
doubles that are at least one are at least one, infinity absorbs them, and so all positive natural
numbers are read as such doubles.
-/

namespace Calculator.Double

open Float.Model (Format UnpackedFloat totalExponent)
open Float.Model.UnpackedFloat

variable {x y : Float} {u v : UnpackedFloat} {s : Sign} {m n : Nat} {e : Int}

/-- Positive infinity, or a positive number with a significand of 53 bits that is at least one. -/
def IsLarge : UnpackedFloat → Prop
  | .infinity s => s = .positive
  | .finite s m e _ => s = .positive ∧ m.log2 = 52 ∧ -52 ≤ e
  | .zero _ | .notANumber => False

def AtLeastOne (x : Float) : Prop := IsLarge x.toModel.unpack

theorem mantissa_shiftRight (em : ExtendedMantissa) (n : Nat) :
    (em >>> n).mantissa = em.mantissa / 2 ^ n := by
  induction n with
  | zero => exact (Nat.div_one em.mantissa).symm
  | succ n ih =>
    change (em >>> n).mantissa / 2 = _
    rw [ih, Nat.div_div_eq_div_mul, Nat.pow_succ]

theorem roundedMantissa_bounds (em : ExtendedMantissa) :
    em.mantissa ≤ em.roundedMantissa ∧ em.roundedMantissa ≤ em.mantissa + 1 := by
  obtain ⟨m, roundBit, stickyBit⟩ := em
  cases roundBit <;> cases stickyBit <;>
    simp [ExtendedMantissa.roundedMantissa, ExtendedMantissa.accuracy,
      Accuracy.roundToNearestEven]
  omega

theorem log2_eq_fiftyTwo_iff : m.log2 = 52 ↔ 2 ^ 52 ≤ m ∧ m < 2 ^ 53 := by
  by_cases hm : m = 0
  · subst m
    decide
  · exact Nat.log2_eq_iff hm

/-- The upper 53 bits of a number. -/
theorem log2_div_two_pow (h : 52 ≤ m.log2) : (m / 2 ^ (m.log2 - 52)).log2 = 52 := by
  have hlog : (m / 2 ^ (m.log2 - 52)).log2 = m.log2 - (m.log2 - 52) := by
    rw [Nat.log2_eq_log_two, Nat.log_div_base_pow, Nat.log2_eq_log_two]
  omega

/-- A long significand is cut to 53 bits. -/
theorem shiftToTargetExponent_eq (h : 52 ≤ m.log2) (he : -1022 ≤ m.log2 + e) :
    shiftToTargetExponent Format.binary64 m e .exact =
      (ExtendedMantissa.mk m false false >>> (m.log2 - 52), e + (m.log2 - 52 : Nat)) := by
  have htarget : (Format.binary64.targetExponent (totalExponent m e) - e).toNat = m.log2 - 52 := by
    change (max ((m.log2 : Int) + 1 + e - 53) (-1074) - e).toNat = m.log2 - 52
    omega
  unfold shiftToTargetExponent shiftToExponent
  dsimp only
  rw [htarget]
  rfl

/-- A number that is at least one still is after rounding. -/
theorem isLarge_roundWithAccuracy (h : 52 ≤ m.log2) (he : 0 ≤ m.log2 + e) :
    IsLarge (roundWithAccuracy Format.binary64 .positive m e .exact) := by
  unfold roundWithAccuracy
  rw [shiftToTargetExponent_eq h (by omega)]
  dsimp only
  generalize hem : ExtendedMantissa.mk m false false >>> (m.log2 - 52) = em
  have hmantissa : em.mantissa = m / 2 ^ (m.log2 - 52) := by
    rw [← hem, mantissa_shiftRight]
  obtain ⟨hle, hlt⟩ := log2_eq_fiftyTwo_iff.1 (log2_div_two_pow h)
  have hbounds := roundedMantissa_bounds em
  -- Rounding up may carry into a bit more, which the second cut takes off again.
  have hrounded : 52 ≤ em.roundedMantissa.log2 := by
    refine (Nat.le_log2 (by omega)).2 ?_
    omega
  rw [shiftToTargetExponent_eq hrounded (by omega)]
  dsimp only
  have hfinal := log2_div_two_pow hrounded
  rw [← mantissa_shiftRight ⟨em.roundedMantissa, false, false⟩] at hfinal
  have hpos : (ExtendedMantissa.mk em.roundedMantissa false false >>>
      (em.roundedMantissa.log2 - 52)).mantissa ≠ 0 := by
    intro hzero
    rw [hzero] at hfinal
    exact absurd hfinal (by decide)
  rw [dif_neg hpos]
  exact ⟨rfl, hfinal, by omega⟩

theorem isLarge_mul (hu : IsLarge u) (hv : IsLarge v) :
    IsLarge (UnpackedFloat.mul Format.binary64 u v) := by
  cases u with
  | zero | notANumber => exact hu.elim
  | infinity s =>
    obtain rfl := hu
    cases v with
    | zero | notANumber => exact hv.elim
    | infinity s =>
      obtain rfl := hv
      rfl
    | finite s n d hn =>
      obtain ⟨rfl, -, -⟩ := hv
      rfl
  | finite s m e hm =>
    obtain ⟨rfl, hlog, he⟩ := hu
    cases v with
    | zero | notANumber => exact hv.elim
    | infinity s =>
      obtain rfl := hv
      rfl
    | finite s n d hn =>
      obtain ⟨rfl, hlog', hd⟩ := hv
      have hproduct : 104 ≤ (m * n).log2 := by
        refine (Nat.le_log2 (Nat.mul_ne_zero hm.ne' hn.ne')).2 ?_
        calc
          2 ^ 104 = 2 ^ 52 * 2 ^ 52 := by decide
          _ ≤ m * n := Nat.mul_le_mul (log2_eq_fiftyTwo_iff.1 hlog).1
            (log2_eq_fiftyTwo_iff.1 hlog').1
      exact isLarge_roundWithAccuracy (by omega) (by omega)

theorem pack_of_log2 (hm : 0 < m) (hlog : m.log2 = 52) :
    pack Format.binary64 (.finite s m e hm) =
      if 2048 ≤ (e + 1075).toNat + 1 then packedInfinity Format.binary64 s
      else packComponents Format.binary64 s (BitVec.ofNat 11 (e + 1075).toNat)
        (BitVec.ofNat 52 m) := by
  have hbias : (e + Format.binary64.exponentBias + Format.binary64.mantissaBitsWithoutImplicit) =
      e + 1075 := by
    change e + 1023 + 52 = e + 1075
    omega
  unfold pack
  dsimp only
  rw [hbias, if_pos (show m.log2 + 1 = Format.binary64.mantissaBits by rw [hlog]; rfl)]

/-- Storing a number only changes it where its exponent is too large, to infinity. -/
theorem isLarge_unpack_pack (h : IsLarge u) :
    IsLarge (unpack Format.binary64 (pack Format.binary64 u)) := by
  cases u with
  | zero | notANumber => exact h.elim
  | infinity s =>
    obtain rfl := h
    rfl
  | finite s m e hm =>
    obtain ⟨rfl, hlog, he⟩ := h
    obtain ⟨hle, hlt⟩ := log2_eq_fiftyTwo_iff.1 hlog
    rw [pack_of_log2 hm hlog]
    split
    · rfl
    · next hexponent =>
      have hfield : (BitVec.ofNat 11 (e + 1075).toNat).toNat = (e + 1075).toNat := by
        rw [BitVec.toNat_ofNat]
        omega
      have hones : BitVec.ofNat 11 (e + 1075).toNat ≠ -1#11 := by
        intro h
        have h := congrArg BitVec.toNat h
        rw [hfield] at h
        change _ = 2047 at h
        omega
      have hzero : BitVec.ofNat 11 (e + 1075).toNat ≠ 0#11 := by
        intro h
        have h := congrArg BitVec.toNat h
        rw [hfield] at h
        change _ = 0 at h
        omega
      rw [unpack_packComponents hones, datum, dif_neg hzero]
      refine ⟨rfl, ?_, ?_⟩
      · rw [BitVec.toNat_ofNat]
        exact log2_eq_fiftyTwo_iff.2 (by omega)
      · rw [hfield]
        omega

theorem AtLeastOne.mul (hx : AtLeastOne x) (hy : AtLeastOne y) : AtLeastOne (x * y) :=
  isLarge_unpack_pack (isLarge_mul hx hy)

end Calculator.Double
