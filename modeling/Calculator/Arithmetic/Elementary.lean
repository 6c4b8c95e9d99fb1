import Calculator.Number.Double

/-!
# Elementary functions

The transcendental functions are a parameter of the calculator: `Elementary.native` holds those of
the machine, and statements that need no more than some law of theirs hold of any record with that
law. The power reports the two ways in which it has no finite value, so that the calculator decides
what stands for them.
-/

namespace Calculator

/-- Why a function of finite arguments has no finite value. -/
inductive RangeFault
  | domain
  | overflow
deriving DecidableEq, Repr

structure Elementary where
  sin : Float → Float
  cos : Float → Float
  tan : Float → Float
  asin : Float → Float
  acos : Float → Float
  atan : Float → Float
  log : Float → Float
  log10 : Float → Float
  pow : Float → Float → Except RangeFault Float

/-- What is reported for the value of a function of two arguments: a NaN or a pole from finite
arguments lies outside the domain, an infinite value from a finite non-zero base is too large. -/
def reportRange (x y value : Float) : Except RangeFault Float :=
  if x.isFinite && y.isFinite then
    if value.isNaN then .error .domain
    else if value.isInf then .error (if x == 0 then .domain else .overflow)
    else .ok value
  else .ok value

def Elementary.native : Elementary where
  sin := Float.sin
  cos := Float.cos
  tan := Float.tan
  asin := Float.asin
  acos := Float.acos
  atan := Float.atan
  log := Float.log
  log10 := Float.log10
  pow x y := reportRange x y (Float.pow x y)

end Calculator
