import Calculator.Arithmetic.Power
import Calculator.Fault

/-!
# Factorials

The factorial of a whole number is the product of the doubles 1, 2, 3, … up to it, taken from the
left. The product stops as soon as it is infinite, since it stays so.
-/

namespace Calculator

/-- The product of `acc` and `count` factors from `next` upwards, cut short once infinite. -/
def productFrom (acc : Float) (next : Nat) : Nat → Float
  | 0 => acc
  | count + 1 =>
    let product := acc * Float.ofNat next
    if product.isInf then product else productFrom product (next + 1) count

/-- The factorial of a non-negative whole number. -/
def factorial (x : Float) : Except Fault Float :=
  if x < 0 || !Double.isWhole x then .error (.factorialDomain x)
  else .ok (productFrom 1 2 (Double.whole x - 1))

end Calculator
