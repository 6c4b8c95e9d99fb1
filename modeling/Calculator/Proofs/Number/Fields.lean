import Mathlib
import Calculator.Number.Double

/-!
# The fields of a double

The bits of a double are a sign, eleven bits of exponent and fifty-two of significand; the exponent
of a finite double is not all ones. `ofFields` puts a double together and `exists_eq_ofFields` takes
a finite one apart, so that its magnitude and its negation are read off the fields.
-/

namespace Calculator.Double

open Float.Model (Format UnpackedFloat)
open Float.Model.UnpackedFloat

variable {s : Sign} {e : BitVec 11} {m : BitVec 52}

theorem toNat_packComponents (s : Sign) (e : BitVec 11) (m : BitVec 52) :
    (packComponents Format.binary64 s e m).toNat =
      s.toBitVec.toNat * 2 ^ 63 + e.toNat * 2 ^ 52 + m.toNat := by
  unfold packComponents
  rw [BitVec.toNat_append, BitVec.toNat_append, ← Nat.shiftLeft_add_eq_or_of_lt m.isLt,
    ← Nat.shiftLeft_add_eq_or_of_lt e.isLt, Nat.shiftLeft_eq, Nat.shiftLeft_eq]
  omega

theorem exists_eq_packComponents (b : BitVec Format.binary64.numBits) :
    ∃ s e m, b = packComponents Format.binary64 s e m :=
  ⟨_, _, _, (packComponents_unpackSign_unpackExponent_unpackMantissa b).symm⟩

/-- The number that the fields of a finite double denote. -/
def datum (s : Sign) (e : BitVec 11) (m : BitVec 52) : UnpackedFloat :=
  if he : e = 0#11 then
    if hm : m = 0#52 then .zero s
    else .finite s m.toNat (-1074) (Nat.pos_of_ne_zero fun h => hm (BitVec.eq_of_toNat_eq h))
  else .finite s (2 ^ 52 + m.toNat) (e.toNat - 1075) (by omega)

theorem unpack_packComponents (he : e ≠ -1#11) :
    unpack Format.binary64 (packComponents Format.binary64 s e m) = datum s e m := by
  unfold unpack datum
  simp only [unpackMantissa_packComponents, unpackExponent_packComponents,
    unpackSign_packComponents, Sign.ofBitVec_toBitVec, if_neg he]
  split
  · next h0 =>
    subst e
    split
    · rfl
    · rfl
  · next h0 =>
    congr 1
    rw [BitVec.toNat_append, ← Nat.shiftLeft_add_eq_or_of_lt m.isLt]
    rfl

theorem pack_datum (he : e ≠ -1#11) :
    pack Format.binary64 (datum s e m) = packComponents Format.binary64 s e m := by
  have hnan : isNaNBits (packComponents Format.binary64 s e m) = false := by
    refine decide_eq_false fun h => he ?_
    rw [← h.1, unpackExponent_packComponents]
  rw [← unpack_packComponents he, pack_unpack, hnan]
  rfl

/-- The double with the given fields. -/
def ofFields (s : Sign) (e : BitVec 11) (m : BitVec 52) : Float :=
  Float.ofBits (UInt64.ofBitVec (packComponents Format.binary64 s e m))

theorem toBits_ofFields (he : e ≠ -1#11) :
    (ofFields s e m).toBits = UInt64.ofBitVec (packComponents Format.binary64 s e m) := by
  change UInt64.ofBitVec (pack Format.binary64 (unpack Format.binary64 _)) = _
  rw [unpack_packComponents he, pack_datum he]

theorem unpack_ofFields (he : e ≠ -1#11) : (ofFields s e m).toModel.unpack = datum s e m := by
  change unpack Format.binary64 (ofFields s e m).toBits.toBitVec = _
  rw [toBits_ofFields he]
  exact unpack_packComponents he

theorem ofModel_pack_datum (he : e ≠ -1#11) :
    Float.ofModel (Float.Model.pack (datum s e m)) = ofFields s e m := by
  rw [← unpack_packComponents he]
  rfl

theorem exists_eq_ofFields {x : Float} (hx : x.isFinite = true) :
    ∃ s e m, e ≠ -1#11 ∧ x = ofFields s e m := by
  obtain ⟨s, e, m, hb⟩ := exists_eq_packComponents x.toBits.toBitVec
  have he : e ≠ -1#11 := by
    rintro rfl
    change (unpack Format.binary64 x.toBits.toBitVec).isFinite = true at hx
    rw [hb, unpack] at hx
    simp only [unpackExponent_packComponents, if_true] at hx
    split at hx <;> cases hx
  refine ⟨s, e, m, he, Float.toBits_inj.1 ?_⟩
  rw [toBits_ofFields he, ← hb]

theorem toNat_toBits_ofFields (he : e ≠ -1#11) :
    (ofFields s e m).toBits.toNat = s.toBitVec.toNat * 2 ^ 63 + e.toNat * 2 ^ 52 + m.toNat := by
  rw [toBits_ofFields he]
  exact toNat_packComponents s e m

theorem magnitude_ofFields (he : e ≠ -1#11) :
    magnitude (ofFields s e m) = e.toNat * 2 ^ 52 + m.toNat := by
  unfold magnitude
  rw [toNat_toBits_ofFields he]
  have hs := s.toBitVec.isLt
  have hlt := e.isLt
  have hm := m.isLt
  omega

theorem isNegative_ofFields (he : e ≠ -1#11) :
    isNegative (ofFields s e m) = (s == .negative) := by
  unfold isNegative
  rw [toNat_toBits_ofFields he]
  have hlt := e.isLt
  have hm := m.isLt
  cases s with
  | negative => exact decide_eq_true (by change 2 ^ 63 ≤ 1 * 2 ^ 63 + _ + _; omega)
  | positive => exact decide_eq_false (by change ¬ 2 ^ 63 ≤ 0 * 2 ^ 63 + _ + _; omega)

theorem ofMagnitude_magnitude (he : e ≠ -1#11) :
    ofMagnitude (magnitude (ofFields s e m)) = ofFields .positive e m := by
  rw [magnitude_ofFields he, ofMagnitude, ofFields]
  congr 1
  apply UInt64.toNat_inj.1
  have hlt := e.isLt
  have hm := m.isLt
  have hn : (packComponents Format.binary64 .positive e m).toNat = e.toNat * 2 ^ 52 + m.toNat := by
    rw [toNat_packComponents]
    change 0 * 2 ^ 63 + _ + _ = _
    omega
  rw [UInt64.toNat_ofNat']
  change _ = (packComponents Format.binary64 .positive e m).toNat
  omega

theorem magnitude_lt {x : Float} (hx : x.isFinite = true) : magnitude x < infinityBits := by
  obtain ⟨s, e, m, he, rfl⟩ := exists_eq_ofFields hx
  rw [magnitude_ofFields he]
  have hne : e.toNat ≠ 2047 := fun h => he (BitVec.eq_of_toNat_eq h)
  have hlt := e.isLt
  have hm := m.isLt
  unfold infinityBits
  omega

theorem unpack_zero : (0 : Float).toModel.unpack = .zero .positive := rfl

/-- A double without the sign of its zero. -/
def plainZero (x : Float) : Float := if x == 0 then 0 else x

theorem ofFields_beq_zero (he : e ≠ -1#11) :
    (ofFields s e m == 0) = UnpackedFloat.beq (datum s e m) (.zero .positive) := by
  rw [← unpack_ofFields he, ← unpack_zero]
  rfl

/-- Subtracting the magnitude of a negative double from zero gives that double, up to the sign of
zero. -/
theorem zero_sub_ofFields (he : e ≠ -1#11) :
    0 - ofFields .positive e m = plainZero (ofFields .negative e m) := by
  have hsub : 0 - ofFields .positive e m = Float.ofModel (Float.Model.pack
      (UnpackedFloat.sub Format.binary64 (.zero .positive) (datum .positive e m))) := by
    rw [← unpack_ofFields he, ← unpack_zero]
    rfl
  rw [hsub, plainZero, ofFields_beq_zero he, ← ofModel_pack_datum he]
  -- Zero, subnormal and normal magnitudes are computed on different branches.
  unfold datum
  split
  · split
    · rfl
    · rfl
  · rfl

theorem plainZero_ofFields_positive (he : e ≠ -1#11) :
    plainZero (ofFields .positive e m) = ofFields .positive e m := by
  rw [plainZero, ofFields_beq_zero he, ← ofModel_pack_datum he]
  unfold datum
  split
  · split
    · rfl
    · rfl
  · rfl

theorem isNaN_eq_false {x : Float} (hx : x.isFinite = true) : x.isNaN = false := by
  change x.toModel.unpack.isFinite = true at hx
  change x.toModel.unpack.isNaN = false
  cases hu : x.toModel.unpack with
  | notANumber => rw [hu] at hx; cases hx
  | infinity s => rfl
  | zero s => rfl
  | finite s n k hn => rfl

theorem isInf_eq_false {x : Float} (hx : x.isFinite = true) : x.isInf = false := by
  change x.toModel.unpack.isFinite = true at hx
  change x.toModel.unpack.isInf = false
  cases hu : x.toModel.unpack with
  | notANumber => rfl
  | infinity s => rw [hu] at hx; cases hx
  | zero s => rfl
  | finite s n k hn => rfl

theorem unpack_inj {x y : Float} : x.toModel.unpack = y.toModel.unpack ↔ x = y := by
  refine ⟨fun h => ?_, fun h => h ▸ rfl⟩
  exact Float.toBits_inj.1 (UInt64.toBitVec_inj.1
    ((unpack_inj_of_valid x.toModel.valid y.toModel.valid).1 h))

theorem isFinite_eq_false_iff {x : Float} :
    x.isFinite = false ↔ x.isInf = true ∨ x.isNaN = true := by
  change x.toModel.unpack.isFinite = false ↔
    x.toModel.unpack.isInf = true ∨ x.toModel.unpack.isNaN = true
  cases x.toModel.unpack <;>
    simp [UnpackedFloat.isFinite, UnpackedFloat.isInf, UnpackedFloat.isNaN]

end Calculator.Double
