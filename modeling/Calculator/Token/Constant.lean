import Calculator.Token.Basic

/-!
# Constants

The circle constant and the base of the natural logarithm, each as the decimal that reads back to
the nearest double. A constant is either recognised as a whole name among the tokens, by
`Token.resolve`, or replaced in the text wherever its letters occur, by `Text.substituteConstants`.
-/

namespace Calculator

namespace Constant

def pi : Text := "3.141592653589793".toList

def e : Text := "2.718281828459045".toList

/-- The decimal of the constant with a given name. -/
def ofName? (name : Text) : Option Text :=
  if name = ['p', 'i'] then some pi else if name = ['e'] then some e else none

end Constant

/-- A name that is a constant becomes its number; any other token stays. -/
def Token.resolve (t : Token) : Token :=
  match t.kind, Constant.ofName? t.text with
  | .identifier, some decimal => Token.number decimal
  | _, _ => t

namespace Text

/-- Replaces each `pi` from the left by its decimal. -/
def substitutePi : Text → Text
  | 'p' :: 'i' :: rest => Constant.pi ++ substitutePi rest
  | c :: rest => c :: substitutePi rest
  | [] => []

/-- Replaces each `e` by its decimal. -/
def substituteE (t : Text) : Text := t.flatMap fun c => if c = 'e' then Constant.e else [c]

/-- Replaces the constants wherever their letters occur, inside longer names too. -/
def substituteConstants (t : Text) : Text := substituteE (substitutePi t)

end Text
end Calculator
