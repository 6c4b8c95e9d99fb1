import Calculator.Arithmetic.Factorial
import Calculator.FunctionName
import Calculator.Operator

/-!
# Operators and functions of doubles

An `Arithmetic` is a choice of elementary functions and of the unit of angles. It gives every
operator and every function its meaning; only the factorial can refuse its argument.
-/

namespace Calculator

inductive Angle
  | degrees
  | radians
deriving DecidableEq, Repr

namespace Angle

/-- The unit with a given name. -/
def ofName? (name : Text) : Option Angle :=
  if name = "deg".toList then some .degrees
  else if name = "rad".toList then some .radians
  else none

def pi : Float := 3.141592653589793

def toRadians : Angle → Float → Float
  | .degrees, x => x * (pi / 180)
  | .radians, x => x

def ofRadians : Angle → Float → Float
  | .degrees, x => x * (180 / pi)
  | .radians, x => x

end Angle

structure Arithmetic where
  elementary : Elementary
  angle : Angle

namespace Arithmetic

variable (a : Arithmetic)

def binary : BinaryOperator → Float → Float → Float
  | .add, x, y => x + y
  | .sub, x, y => x - y
  | .mul, x, y => x * y
  | .div, x, y => x / y
  | .pow, x, y => power a.elementary x y

def reciprocal (x : Float) : Float := 1 / x

/-- A logarithm with its limit at both zeros, negative infinity. -/
def withPole (log : Float → Float) (x : Float) : Float :=
  if x == 0 then -Double.infinity else log x

def apply : FunctionName → Float → Except Fault Float
  | .sin, x => .ok (a.elementary.sin (a.angle.toRadians x))
  | .cos, x => .ok (a.elementary.cos (a.angle.toRadians x))
  | .tan, x => .ok (a.elementary.tan (a.angle.toRadians x))
  | .asin, x => .ok (a.angle.ofRadians (a.elementary.asin x))
  | .acos, x => .ok (a.angle.ofRadians (a.elementary.acos x))
  | .atan, x => .ok (a.angle.ofRadians (a.elementary.atan x))
  | .log, x => .ok (withPole a.elementary.log10 x)
  | .ln, x => .ok (withPole a.elementary.log x)
  | .sqrt, x => .ok x.sqrt
  | .fact, x => factorial x

end Arithmetic
end Calculator
