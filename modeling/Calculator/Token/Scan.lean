import Calculator.Text.Letter
import Calculator.Text.Digit
import Calculator.Token.Constant
import Calculator.Fault

/-!
# Cutting a text into tokens

The class of a character decides what it can belong to. Runs of digits and points are numbers and
runs of letters are names, both as long as possible; every other character is a token of its own. A
number that is just `1` forms the reciprocal operator with a division sign after it. A character of
no class is a fault, and the first one is reported.
-/

namespace Calculator

namespace Kind

/-- The kind of token that a character belongs to. -/
def ofChar? (c : Char) : Option Kind :=
  if isDigit c || c == '.' then some .number
  else if isLetter c then some .identifier
  else if c ∈ ['+', '-', '*', '/', '^'] then some .operator
  else if c = '(' then some .opening
  else if c = ')' then some .closing
  else none

/-- Neighbouring characters of this kind belong to one token. -/
def runs (k : Kind) : Bool := k == .number || k == .identifier

end Kind

namespace Token

/-- Puts a character in front of tokens: it extends the first one, or is a token of its own. -/
def extend (k : Kind) (c : Char) : List Token → List Token
  | [] => [⟨k, [c]⟩]
  | t :: rest =>
    if t.kind = k ∧ k.runs then ⟨k, c :: t.text⟩ :: rest else ⟨k, [c]⟩ :: t :: rest

/-- The text as runs and single characters, or its first character without a class. -/
def lexemes : Text → Except Fault (List Token)
  | [] => .ok []
  | c :: rest =>
    match Kind.ofChar? c with
    | none => .error (.invalidCharacter c)
    | some k => (lexemes rest).map (extend k c)

def one : Token := number ['1']

def slash : Token := operator ['/']

def reciprocal : Token := operator ['1', '/']

/-- Joins every number `1` with a division sign after it, from the left. -/
def joinReciprocals : List Token → List Token
  | t :: u :: rest =>
    if t = one ∧ u = slash then reciprocal :: joinReciprocals rest
    else t :: joinReciprocals (u :: rest)
  | tokens => tokens

/-- The tokens of a text; with `constants`, names of constants are numbers. -/
def scan (constants : Bool) (t : Text) : Except Fault (List Token) :=
  (lexemes t).map fun tokens =>
    if constants then (joinReciprocals tokens).map resolve else joinReciprocals tokens

end Token
end Calculator
