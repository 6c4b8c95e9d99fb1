import Calculator.Text.Blank
import Calculator.Text.Digit
import Calculator.Number.Double

/-!
# Reading numerals

Digits of every script count as digits, white space around a numeral is ignored, and an underscore
may stand between two digits. `Numeral.double?` reads a real numeral (a sign, digits with at most
one point, an exponent, or the name of an infinity or of NaN in either case) to the nearest double;
`Numeral.integer?` reads a sign and digits.
-/

namespace Calculator.Numeral

/-- The ASCII form of a digit or of white space outside ASCII; other characters are kept. -/
def asciiForm (c : Char) : Char :=
  if c.toNat < 0x80 then c
  else if isSpace c then ' '
  else match digitValue? c with
    | some d => d.digitChar
    | none => c

/-- A numeral without the white space around it, in ASCII where possible. -/
def bare (t : Text) : Text := Text.trim isAsciiSpace (t.map asciiForm)

/-- Removes underscores; one that does not stand between two digits spoils the numeral. The flag
says that a digit came just before. -/
def ungroup : Bool → Text → Option Text
  | _, [] => some []
  | afterDigit, c :: rest =>
    if c = '_' then
      if afterDigit && rest.head?.any Char.isDigit then ungroup false rest else none
    else (ungroup c.isDigit rest).map (c :: ·)

/-- Whether a minus sign leads, and what follows the optional sign. -/
def splitSign : Text → Bool × Text
  | '-' :: rest => (true, rest)
  | '+' :: rest => (false, rest)
  | t => (false, t)

/-- A sign and at least one digit. -/
def signedDigits? (t : Text) : Option Int :=
  let (negative, digits) := splitSign t
  if digits.isEmpty || !digits.all Char.isDigit then none
  else
    let n : Int := Nat.ofDigitChars 10 digits 0
    some (if negative then -n else n)

/-- Nothing, or the letter `e` in either case and a signed whole number. -/
def exponent? : Text → Option Int
  | [] => some 0
  | c :: rest => if c.toLower = 'e' then signedDigits? rest else none

/-- Digits with at most one point among or around them, then an exponent. -/
def decimal? (t : Text) : Option Decimal :=
  let whole := t.takeWhile Char.isDigit
  let (fraction, rest) := match t.dropWhile Char.isDigit with
    | '.' :: rest => (rest.takeWhile Char.isDigit, rest.dropWhile Char.isDigit)
    | rest => ([], rest)
  let digits := whole ++ fraction
  if digits.isEmpty then none
  else (exponent? rest).map fun e =>
    .of (Nat.ofDigitChars 10 digits 0) (e - fraction.length)

/-- The value of a numeral without a sign. -/
def magnitude? (t : Text) : Option Float :=
  let name := t.map Char.toLower
  if name = "inf".toList ∨ name = "infinity".toList then some Double.infinity
  else if name = "nan".toList then some Double.nan
  else (decimal? t).map Decimal.toFloat

/-- The double nearest to the number that a text denotes. -/
def double? (t : Text) : Option Float :=
  (ungroup false (bare t)).bind fun t =>
    let (negative, t) := splitSign t
    (magnitude? t).map fun x => if negative then -x else x

/-- A whole number of at most 4300 digits. -/
def integer? (t : Text) : Option Int :=
  (ungroup false (bare t)).bind fun t =>
    if 4300 < (splitSign t).2.length then none else signedDigits? t

end Calculator.Numeral
