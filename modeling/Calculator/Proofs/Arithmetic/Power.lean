import Calculator.Proofs.Number.Negation

/-!
# Whole powers of a negated base

Even powers do not see the sign of the base, and odd powers carry it over. The elementary power is
taken to obey this law wherever it has a value. Zero to a negative power and values that are too
large are left to the calculator, which chooses the sign of the infinity itself, from the sign of
the zero and by comparing the base with zero. `power_neg` says that the law holds there as well.
-/

namespace Calculator

open Double

/-- The law of the elementary power at whole exponents. It lies outside the domain for zero to a
negative power only; it is too large only for finite bases other than zero, and then also for the
negated base; and otherwise the negated base has the same value, negated if the exponent is odd. -/
structure Elementary.PowerLaw (f : Elementary) : Prop where
  domain : ∀ {b n : Float}, isWhole n = true →
    (f.pow b n = .error .domain ↔ (b == 0) = true ∧ n < 0)
  overflow : ∀ {b n : Float}, isWhole n = true → f.pow b n = .error .overflow →
    b.isFinite = true ∧ (b == 0) = false ∧ f.pow (-b) n = .error .overflow
  parity : ∀ {b n v w : Float}, isWhole n = true → f.pow b n = .ok v → f.pow (-b) n = .ok w →
    w = if isOdd n then -v else v

variable {f : Elementary} {b n v : Float}

theorem power_of_pole (hzero : (b == 0) = true) (hn : n < 0) :
    power f b n = if isOdd n then withSignOf b infinityBits else infinity := by
  rw [power, if_pos (by simp [hzero, hn])]

theorem power_of_ok (h : ¬ ((b == 0) = true ∧ n < 0)) (hv : f.pow b n = .ok v) :
    power f b n = v := by
  rw [power, if_neg (by simpa using h), hv]

theorem power_of_overflow (hzero : (b == 0) = false) (ho : f.pow b n = .error .overflow) :
    power f b n = if b < 0 ∧ isOdd n = true then -infinity else infinity := by
  rw [power, if_neg (by simp [hzero]), ho]
  simp only [Bool.and_eq_true, decide_eq_true_eq]

theorem withSignOf_neg_of_zero (hzero : (b == 0) = true) :
    withSignOf (-b) infinityBits = -withSignOf b infinityBits := by
  rcases (Float.beq_iff_ne_nan_and_eq.1 hzero).2.2 with rfl | ⟨rfl, -⟩ | ⟨rfl, -⟩
  · decide +kernel
  · decide +kernel
  · decide +kernel

theorem isInf_withSignOf_infinityBits (b : Float) : (withSignOf b infinityBits).isInf = true := by
  unfold withSignOf
  split
  · rw [isInf_neg]
    rfl
  · rfl

theorem power_neg_of_pole (hzero : (b == 0) = true) (hn : n < 0) :
    power f (-b) n = if isOdd n then -power f b n else power f b n := by
  rw [power_of_pole hzero hn, power_of_pole (by rw [neg_beq_zero, hzero]) hn]
  split
  · exact withSignOf_neg_of_zero hzero
  · rfl

/-- Of a base and its negation just one is negative, so an odd power has both infinities. -/
theorem power_neg_of_overflow (hf : f.PowerLaw) (hn : isWhole n = true)
    (ho : f.pow b n = .error .overflow) :
    power f (-b) n = if isOdd n then -power f b n else power f b n := by
  obtain ⟨hfinite, hzero, ho'⟩ := hf.overflow hn ho
  rw [power_of_overflow hzero ho, power_of_overflow (by rw [neg_beq_zero, hzero]) ho']
  cases isOdd n with
  | false => simp
  | true =>
    by_cases hneg : b < 0
    · rw [if_neg fun h => (neg_lt_zero_iff hfinite hzero).1 h.1 hneg, if_pos rfl,
        if_pos ⟨hneg, rfl⟩, Double.neg_neg]
    · rw [if_pos ⟨(neg_lt_zero_iff hfinite hzero).2 hneg, rfl⟩, if_pos rfl,
        if_neg fun h => hneg h.1]

theorem power_neg_of_ok (hf : f.PowerLaw) (hn : isWhole n = true)
    (hpole : ¬ ((b == 0) = true ∧ n < 0)) (hv : f.pow b n = .ok v) :
    power f (-b) n = if isOdd n then -power f b n else power f b n := by
  have hpole' : ¬ ((-b == 0) = true ∧ n < 0) := by rwa [neg_beq_zero]
  rw [power_of_ok hpole hv]
  cases hw : f.pow (-b) n with
  | ok w => rw [power_of_ok hpole' hw, hf.parity hn hv hw]
  | error fault =>
    cases fault with
    | domain => exact absurd ((hf.domain hn).1 hw) hpole'
    | overflow =>
      have ho := (hf.overflow hn hw).2.2
      rw [Double.neg_neg, hv] at ho
      cases ho

/-- A whole power of a negated base is the power of the base, negated if the exponent is odd. This
includes powers of zeros, infinities and NaN, and those that the elementary power refuses; there
the value is infinite. -/
theorem power_neg (hf : f.PowerLaw) (b : Float) {n : Float} (hn : isWhole n = true) :
    power f (-b) n = (if isOdd n then -power f b n else power f b n) ∧
      ∀ fault, f.pow b n = .error fault → (power f b n).isInf = true := by
  by_cases hpole : (b == 0) = true ∧ n < 0
  · refine ⟨power_neg_of_pole hpole.1 hpole.2, fun _ _ => ?_⟩
    rw [power_of_pole hpole.1 hpole.2]
    split
    · exact isInf_withSignOf_infinityBits b
    · rfl
  · cases hv : f.pow b n with
    | ok v => exact ⟨power_neg_of_ok hf hn hpole hv, nofun⟩
    | error fault =>
      cases fault with
      | domain => exact absurd ((hf.domain hn).1 hv) hpole
      | overflow =>
        refine ⟨power_neg_of_overflow hf hn hv, fun _ _ => ?_⟩
        rw [power_of_overflow (hf.overflow hn hv).2.1 hv]
        split
        · rfl
        · rfl

/-- The power of a magnitude by repeated multiplication. -/
def repeatedProduct (x : Float) : Nat → Float
  | 0 => 1
  | k + 1 => repeatedProduct x k * x

/-- A whole power by repeated multiplication, the sign set at the end. -/
def wholePower (b n : Float) : Float :=
  let product := repeatedProduct b.abs (whole n)
  let magnitude := if n < 0 then 1 / product else product
  if isNegative b && isOdd n then -magnitude else magnitude

/-- Elementary functions with a power that computes, for whole exponents. -/
def Elementary.multiplying : Elementary :=
  { Elementary.native with
    pow := fun b n =>
      if (b == 0) = true ∧ n < 0 then .error .domain
      else if b.isFinite = true ∧ (b == 0) = false ∧ (wholePower b n).isInf = true then
        .error .overflow
      else .ok (wholePower b n) }

theorem mul_nan (x : Float) : x * nan = nan := by
  change Float.ofModel (Float.Model.pack
    (Float.Model.UnpackedFloat.mul _ x.toModel.unpack .notANumber)) = _
  cases x.toModel.unpack <;> rfl

theorem wholePower_nan (hodd : isOdd n = true) : wholePower nan n = nan := by
  have hproduct : repeatedProduct nan.abs (whole n) = nan := by
    cases hk : whole n with
    | zero =>
      rw [isOdd, hk] at hodd
      simp at hodd
    | succ k => exact mul_nan _
  unfold wholePower
  rw [hproduct, show isNegative nan = false by decide +kernel, Bool.false_and,
    if_neg Bool.false_ne_true]
  split
  · decide +kernel
  · rfl

theorem wholePower_neg (b n : Float) :
    wholePower (-b) n = if isOdd n then -wholePower b n else wholePower b n := by
  by_cases hb : b = nan
  · subst b
    rw [show -nan = nan by decide +kernel]
    split
    · next hodd =>
      rw [wholePower_nan hodd]
      decide +kernel
    · rfl
  · unfold wholePower
    rw [Double.abs_neg, isNegative_neg hb]
    cases isOdd n <;> cases isNegative b <;> simp [Double.neg_neg]

theorem powerLaw_multiplying : Elementary.multiplying.PowerLaw where
  domain := by
    intro b n _
    simp only [Elementary.multiplying]
    split
    · next h => exact iff_of_true rfl h
    · next h =>
      split
      · exact iff_of_false nofun h
      · exact iff_of_false nofun h
  overflow := by
    intro b n _ ho
    have hinf : (wholePower (-b) n).isInf = (wholePower b n).isInf := by
      rw [wholePower_neg]
      split
      · exact isInf_neg _
      · rfl
    simp only [Elementary.multiplying] at ho ⊢
    rw [neg_beq_zero, isFinite_neg, hinf]
    split at ho
    · cases ho
    · next hpole =>
      split at ho
      · next h => exact ⟨h.1, h.2.1, by rw [if_neg hpole, if_pos h]⟩
      · cases ho
  parity := by
    intro b n v w _ hv hw
    have heq {c u : Float} (h : Elementary.multiplying.pow c n = .ok u) : u = wholePower c n := by
      simp only [Elementary.multiplying] at h
      split at h
      · cases h
      · split at h
        · cases h
        · exact (Except.ok.inj h).symm
    rw [heq hv, heq hw, wholePower_neg]

/-- A cube, a square, an odd pole and an odd power that is too large. -/
theorem power_neg_multiplying :
    power .multiplying (-2) 3 = -8 ∧ power .multiplying (-2) 2 = 4 ∧
      power .multiplying (-0) (-1) = -infinity ∧
      power .multiplying (-1e200) 3 = -infinity := by
  have hcube := (power_neg powerLaw_multiplying 2 (n := 3) (by decide +kernel)).1
  have hsquare := (power_neg powerLaw_multiplying 2 (n := 2) (by decide +kernel)).1
  have hpole := (power_neg powerLaw_multiplying 0 (n := -1) (by decide +kernel)).1
  have hlarge := (power_neg powerLaw_multiplying 1e200 (n := 3) (by decide +kernel)).1
  exact ⟨hcube.trans (by decide +kernel), hsquare.trans (by decide +kernel),
    hpole.trans (by decide +kernel), hlarge.trans (by decide +kernel)⟩

end Calculator
