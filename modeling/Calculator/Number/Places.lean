import Calculator.Number.Double

/-!
# Rounding to decimal places

The exact value of a double is rounded to a multiple of `10 ^ (-places)`, a tie going to the even
multiple, and the result is read as a double again. Beyond 323 places every double is such a
multiple, and below -308 places every double rounds to zero.
-/

namespace Calculator.Double

/-- A double rounded to `places` decimal places, with its sign; `none` when the rounded value
exceeds the largest double. -/
def round? (places : Int) (x : Float) : Option Float :=
  if !x.isFinite || 323 < places then some x
  else if places < -308 then some (withSignOf x 0)
  else
    let multiple := roundHalfEven (units (magnitude x) * 10 ^ places.toNat)
      (unit * 10 ^ (-places).toNat)
    let bits := (Decimal.of multiple (-places)).magnitude
    if bits = infinityBits then none else some (withSignOf x bits)

end Calculator.Double
