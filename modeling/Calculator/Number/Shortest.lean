import Calculator.Number.Double

/-!
# The shortest decimal that reads back

For 1, 2, … 17 digits the two decimals of that length around a double are tried, the nearer one
first and of two equally near ones the even one; the first that reads back to the same double is its
shortest decimal. The exact decimal value of the double stands behind the search, so
`magnitude_shortest`, that the result reads back, needs no bound on the number of digits.
-/

namespace Calculator.Double

/-- The exponent of the leading decimal digit of a number of units. -/
def leadingExponent (u : Nat) : Int :=
  ((Nat.toDigits 10 (u * 10 ^ 400 / unit)).length : Int) - 401

/-- The two decimals next to a number of units whose last digit has the given exponent, the nearer
one first. -/
def neighbours (u : Nat) (exponent : Int) : List Decimal :=
  let num := u * 10 ^ (-exponent).toNat
  let den := unit * 10 ^ exponent.toNat
  let below := num / den
  let nearer := roundHalfEven num den
  [.of nearer exponent, .of (below + (below + 1) - nearer) exponent]

/-- The exact value of a number of units. -/
def exact (u : Nat) : Decimal := .of (u * 5 ^ leastBit) (-leastBit)

/-- The first decimal that reads back, of those with 1, 2, … 17 digits from the leading one on. -/
def search (bits : Nat) (leading : Int) : Option Decimal :=
  (List.range 17).findSome? fun n : Nat =>
    (neighbours (units bits) (leading - n)).find? fun d => d.magnitude == bits

/-- The shortest decimal that reads back to the finite magnitude with the given bits. -/
def shortest (bits : Nat) : Decimal :=
  (search bits (leadingExponent (units bits))).getD (exact (units bits))

theorem ten_pow (k : Nat) : 10 ^ k = 5 ^ k * 2 ^ k := by
  rw [← Nat.mul_pow]

/-- Reducing a multiple of `10 ^ (-p)` keeps its value. -/
theorem coefficient_mul_two_pow {u : Nat} (hu : u ≠ 0) (p : Nat) {d : Decimal}
    (hd : d = .of (u * 5 ^ p) (-p)) :
    d.coefficient * 10 ^ d.exponent.toNat * 2 ^ p = u * 10 ^ (-d.exponent).toNat := by
  have hc : u * 5 ^ p ≠ 0 := Nat.mul_ne_zero hu (Nat.ne_of_gt (Nat.pow_pos (by decide)))
  obtain ⟨k, he, hk⟩ := Decimal.exists_of_eq (-p) hc
  rw [← hd] at he hk
  by_cases hle : k ≤ p
  · have hp : d.exponent.toNat = 0 := by omega
    have hm : (-d.exponent).toNat = p - k := by omega
    rw [hp, hm, Nat.pow_zero, Nat.mul_one]
    apply Nat.eq_of_mul_eq_mul_right (Nat.pow_pos (by decide) : 0 < 10 ^ k)
    rw [Nat.mul_right_comm, ← hk, Nat.mul_assoc, ← ten_pow, Nat.mul_assoc, ← Nat.pow_add,
      Nat.sub_add_cancel hle]
  · have hp : d.exponent.toNat = k - p := by omega
    have hm : (-d.exponent).toNat = 0 := by omega
    rw [hp, hm, Nat.pow_zero, Nat.mul_one]
    apply Nat.eq_of_mul_eq_mul_right (Nat.pow_pos (by decide) : 0 < 5 ^ p)
    rw [hk, Nat.mul_assoc, Nat.mul_comm (2 ^ p), ← ten_pow, Nat.mul_assoc, ← Nat.pow_add,
      Nat.sub_add_cancel (by omega)]

theorem exact_zero : exact 0 = ⟨0, 0, .inr ⟨rfl, rfl⟩⟩ := by
  rw [exact, Nat.zero_mul, Decimal.of_zero]

/-- The exact value of a finite double reads back to it. -/
theorem magnitude_exact {bits : Nat} (h : bits < infinityBits) :
    (exact (units bits)).magnitude = bits := by
  apply Decimal.magnitude_eq_of_units h
  by_cases hu : units bits = 0
  · rw [hu, exact_zero]
    simp
  · unfold unit
    exact coefficient_mul_two_pow hu leastBit (by unfold exact; rfl)

/-- The shortest decimal of a finite double reads back to it. -/
theorem magnitude_shortest {bits : Nat} (h : bits < infinityBits) :
    (shortest bits).magnitude = bits := by
  unfold shortest
  cases hs : search bits (leadingExponent (units bits)) with
  | none =>
    rw [Option.getD_none]
    exact magnitude_exact h
  | some d =>
    obtain ⟨n, _, hn⟩ := List.exists_of_findSome?_eq_some hs
    have hd := List.find?_some hn
    rw [Option.getD_some]
    exact eq_of_beq hd

end Calculator.Double
