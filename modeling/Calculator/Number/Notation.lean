import Calculator.Text.Basic
import Calculator.Number.Shortest

/-!
# Written numbers

A finite double is written with the digits of its shortest decimal. `display` is the notation of
results: positional, with at least one digit after the point, while the leading digit stands between
`10 ^ (-4)` and `10 ^ 15`, and otherwise one digit before the point and an exponent of at least two
digits. `plain` writes the same digits without an exponent, whatever the size.
-/

namespace Calculator

namespace Decimal

def digits (d : Decimal) : Text := Nat.toDigits 10 d.coefficient

/-- How many digits stand before the decimal point; negative when zeros follow the point. -/
def point (d : Decimal) : Int := d.digits.length + d.exponent

/-- The digits with a decimal point after the first `point` of them, gaps filled with zeros. -/
def placePoint (digits : Text) (point : Int) : Text :=
  if point ≤ 0 then '0' :: '.' :: (List.replicate (-point).toNat '0' ++ digits)
  else if point.toNat < digits.length then
    digits.take point.toNat ++ '.' :: digits.drop point.toNat
  else digits ++ List.replicate (point.toNat - digits.length) '0'

/-- The notation without an exponent; a whole number of at most 16 digits gets a fraction. -/
def plain (d : Decimal) : Text :=
  placePoint d.digits d.point ++ if 0 ≤ d.exponent ∧ d.point ≤ 16 then ['.', '0'] else []

/-- An exponent, with its sign and at least two digits. -/
def exponentPart (e : Int) : Text :=
  let digits := Nat.toDigits 10 e.natAbs
  'e' :: (if e < 0 then '-' else '+') :: (List.replicate (2 - digits.length) '0' ++ digits)

/-- One digit, a point with the other digits if there are any, and the exponent. -/
def scientific (d : Decimal) : Text :=
  let fraction := d.digits.drop 1
  d.digits.take 1 ++ (if fraction.isEmpty then [] else '.' :: fraction) ++
    exponentPart (d.point - 1)

def display (d : Decimal) : Text :=
  if -3 ≤ d.point ∧ d.point ≤ 16 then d.plain else d.scientific

end Decimal

namespace Double

/-- How doubles are written: the finite ones by their decimal, the others by name. -/
structure Notation where
  finite : Decimal → Text
  infinite : Text
  notANumber : Text

/-- A minus sign marks every negative double, zero and infinity included; a NaN has no sign. -/
def Notation.write (n : Notation) (x : Float) : Text :=
  if x.isNaN then n.notANumber
  else (if isNegative x then ['-'] else []) ++
    if x.isInf then n.infinite else n.finite (shortest (magnitude x))

def display : Float → Text := Notation.write ⟨Decimal.display, "inf".toList, "nan".toList⟩

def plain : Float → Text :=
  Notation.write ⟨Decimal.plain, "Infinity".toList, "NaN".toList⟩

end Double
end Calculator
