import Calculator.Arithmetic.Power
import Calculator.Proofs.Number.Fields

/-!
# Negation

The negation of a double has the same exponent and significand and the other sign, and the negation
of a NaN is the same NaN. So negating twice changes nothing, neither magnitude nor the distinction
of zeros, finite numbers, infinities and NaNs sees the sign, and of a number and its negation just
one is negative unless both are zero.
-/

namespace Calculator.Double

open Float.Model (Format UnpackedFloat)
open Float.Model.UnpackedFloat

variable {x : Float} {s : Sign} {e : BitVec 11} {m : BitVec 52}

theorem neg_datum (s : Sign) (e : BitVec 11) (m : BitVec 52) :
    (datum s e m).neg = datum (-s) e m := by
  unfold datum
  split
  · split
    · rfl
    · rfl
  · rfl

theorem neg_ofFields (he : e ≠ -1#11) : -ofFields s e m = ofFields (-s) e m := by
  have hneg : -ofFields s e m =
      Float.ofModel (Float.Model.pack (ofFields s e m).toModel.unpack.neg) := rfl
  rw [hneg, unpack_ofFields he, neg_datum, ofModel_pack_datum he]

theorem unpack_neg (x : Float) : (-x).toModel.unpack = x.toModel.unpack.neg := by
  cases hx : x.isFinite with
  | true =>
    obtain ⟨s, e, m, he, rfl⟩ := exists_eq_ofFields hx
    rw [neg_ofFields he, unpack_ofFields he, unpack_ofFields he, neg_datum]
  | false =>
    change x.toModel.unpack.isFinite = false at hx
    change unpack Format.binary64 (pack Format.binary64 x.toModel.unpack.neg) = _
    cases hu : x.toModel.unpack with
    | notANumber => rfl
    | infinity s =>
      cases s with
      | positive => rfl
      | negative => rfl
    | zero | finite =>
      rw [hu] at hx
      cases hx

protected theorem neg_neg (x : Float) : - -x = x := by
  apply unpack_inj.1
  rw [unpack_neg, unpack_neg]
  have hsign (s : Sign) : - -s = s := by cases s <;> rfl
  cases x.toModel.unpack with
  | notANumber => rfl
  | infinity | zero | finite => rw [UnpackedFloat.neg, UnpackedFloat.neg, hsign]

theorem isFinite_neg (x : Float) : (-x).isFinite = x.isFinite := by
  change (-x).toModel.unpack.isFinite = x.toModel.unpack.isFinite
  rw [unpack_neg]
  cases x.toModel.unpack <;> rfl

theorem isInf_neg (x : Float) : (-x).isInf = x.isInf := by
  change (-x).toModel.unpack.isInf = x.toModel.unpack.isInf
  rw [unpack_neg]
  cases x.toModel.unpack <;> rfl

protected theorem abs_neg (x : Float) : (-x).abs = x.abs := by
  change Float.ofModel (Float.Model.pack (-x).toModel.unpack.abs) =
    Float.ofModel (Float.Model.pack x.toModel.unpack.abs)
  rw [unpack_neg]
  cases x.toModel.unpack <;> rfl

/-- Only a NaN has the same sign bit as its negation. -/
theorem isNegative_neg (hx : x ≠ nan) : isNegative (-x) = !isNegative x := by
  cases hfinite : x.isFinite with
  | true =>
    obtain ⟨s, e, m, he, rfl⟩ := exists_eq_ofFields hfinite
    rw [neg_ofFields he, isNegative_ofFields he, isNegative_ofFields he]
    cases s <;> rfl
  | false =>
    change x.toModel.unpack.isFinite = false at hfinite
    cases hu : x.toModel.unpack with
    | notANumber => exact absurd (unpack_inj.1 hu) hx
    | infinity s =>
      cases s with
      | positive =>
        obtain rfl : x = infinity := unpack_inj.1 hu
        decide +kernel
      | negative =>
        obtain rfl : x = -infinity := unpack_inj.1 hu
        decide +kernel
    | zero | finite =>
      rw [hu] at hfinite
      cases hfinite

theorem neg_beq_zero (x : Float) : (-x == 0) = (x == 0) := by
  change UnpackedFloat.beq (-x).toModel.unpack (.zero .positive) =
    UnpackedFloat.beq x.toModel.unpack (.zero .positive)
  rw [unpack_neg]
  cases x.toModel.unpack with
  | notANumber | zero => rfl
  | infinity s | finite s => cases s <;> rfl

theorem lt_zero_iff (x : Float) :
    x < 0 ↔ UnpackedFloat.lt x.toModel.unpack (.zero .positive) = true := by
  change decide (UnpackedFloat.lt x.toModel.unpack (.zero .positive) = true) = true ↔ _
  exact decide_eq_true_iff

/-- A finite number other than zero or its negation is negative, and only one of them. -/
theorem neg_lt_zero_iff (hx : x.isFinite = true) (hzero : (x == 0) = false) :
    -x < 0 ↔ ¬ x < 0 := by
  rw [lt_zero_iff, lt_zero_iff, unpack_neg]
  change UnpackedFloat.beq x.toModel.unpack (.zero .positive) = false at hzero
  change x.toModel.unpack.isFinite = true at hx
  cases hu : x.toModel.unpack with
  | notANumber | infinity =>
    rw [hu] at hx
    cases hx
  | zero =>
    rw [hu] at hzero
    cases hzero
  | finite s =>
    cases s with
    | negative => exact iff_of_false Bool.false_ne_true (absurd rfl)
    | positive => exact iff_of_true rfl Bool.false_ne_true

end Calculator.Double
