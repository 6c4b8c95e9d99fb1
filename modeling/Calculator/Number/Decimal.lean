/-!
# Decimal numbers

A decimal is `coefficient * 10 ^ exponent` in lowest terms: the coefficient does not end in a zero,
and zero has exponent zero. So two decimals are equal exactly when they denote the same number, and
whatever is computed from a decimal depends on the number alone. `Decimal.of` reduces an arbitrary
coefficient and exponent.
-/

-- Powers of natural numbers are those of `Nat`, also beside a library that has monoids.
attribute [instance (high), default_instance (high)] instPowNat

namespace Calculator

structure Decimal where
  coefficient : Nat
  exponent : Int
  reduced : coefficient % 10 ≠ 0 ∨ coefficient = 0 ∧ exponent = 0
deriving DecidableEq

namespace Decimal

/-- The decimal `coefficient * 10 ^ exponent`, trailing zeros moved into the exponent. -/
def of (coefficient : Nat) (exponent : Int) : Decimal :=
  if hz : coefficient = 0 then ⟨0, 0, .inr ⟨rfl, rfl⟩⟩
  else if ht : coefficient % 10 = 0 then of (coefficient / 10) (exponent + 1)
  else ⟨coefficient, exponent, .inl ht⟩
termination_by coefficient
decreasing_by omega

theorem of_zero (e : Int) : of 0 e = ⟨0, 0, .inr ⟨rfl, rfl⟩⟩ := by
  rw [of]
  simp

theorem of_reduced {c : Nat} (e : Int) (h : c % 10 ≠ 0) : of c e = ⟨c, e, .inl h⟩ := by
  rw [of, dif_neg (by omega), dif_neg h]

theorem of_mul_ten (c : Nat) (e : Int) : of (c * 10) e = of c (e + 1) := by
  by_cases hc : c = 0
  · subst c
    rw [Nat.zero_mul, of_zero, of_zero]
  · rw [of, dif_neg (by omega), dif_pos (by omega), Nat.mul_div_cancel c (by omega)]

/-- Trailing zeros of the coefficient may stand in the exponent instead. -/
theorem of_mul_pow (c k : Nat) (e : Int) : of (c * 10 ^ k) e = of c (e + k) := by
  induction k generalizing e with
  | zero => simp
  | succ k ih =>
    rw [Nat.pow_succ, ← Nat.mul_assoc, of_mul_ten, ih]
    congr 1
    omega

theorem of_coefficient_exponent (d : Decimal) : of d.coefficient d.exponent = d := by
  obtain ⟨c, e, h⟩ := d
  rcases h with h | ⟨rfl, rfl⟩
  · exact of_reduced e h
  · exact of_zero 0

/-- Reducing a decimal only moves zeros from the coefficient to the exponent. -/
theorem exists_of_eq {c : Nat} (e : Int) (h : c ≠ 0) :
    ∃ k : Nat, (of c e).exponent = e + k ∧ c = (of c e).coefficient * 10 ^ k := by
  induction c using Nat.strongRecOn generalizing e with
  | ind c ih =>
    by_cases ht : c % 10 = 0
    · obtain ⟨k, hk, hc⟩ := ih (c / 10) (by omega) (e + 1) (by omega)
      have hof : of c e = of (c / 10) (e + 1) := by rw [of, dif_neg h, dif_pos ht]
      refine ⟨k + 1, ?_, ?_⟩
      · rw [hof, hk]
        omega
      · rw [hof, Nat.pow_succ, ← Nat.mul_assoc, ← hc]
        omega
    · exact ⟨0, by rw [of_reduced e ht]; simp, by rw [of_reduced e ht]; simp⟩

end Decimal
end Calculator
