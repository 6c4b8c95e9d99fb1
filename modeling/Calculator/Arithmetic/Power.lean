import Calculator.Arithmetic.Elementary

/-!
# Powers

`power` always has a value. Zero to a negative power is infinite and keeps the sign of the zero at
odd whole exponents; a value too large for a double is infinite and keeps the sign of the base at
odd whole exponents; outside the domain the value is NaN.
-/

namespace Calculator

namespace Double

/-- A finite double without a fractional part. -/
def isWhole (x : Float) : Bool := x.isFinite && units (magnitude x) % unit == 0

/-- The whole part of the magnitude. -/
def whole (x : Float) : Nat := units (magnitude x) / unit

def isOdd (x : Float) : Bool := isWhole x && whole x % 2 == 1

end Double

open Double in
def power (f : Elementary) (base exponent : Float) : Float :=
  if base == 0 && exponent < 0 then
    if isOdd exponent then withSignOf base infinityBits else infinity
  else match f.pow base exponent with
    | .ok value => value
    | .error .domain => nan
    | .error .overflow => if base < 0 && isOdd exponent then -infinity else infinity

end Calculator
