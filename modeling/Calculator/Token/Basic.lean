import Calculator.Operator

/-!
# Tokens

A token is a kind with the text it was cut from. Numbers keep their literal text until they are
computed with, so a token can also hold a literal that is no number.
-/

namespace Calculator

inductive Kind
  | number
  | identifier
  | operator
  | opening
  | closing
deriving DecidableEq, Repr

structure Token where
  kind : Kind
  text : Text
deriving DecidableEq, Repr

namespace Token

def number (text : Text) : Token := ⟨.number, text⟩

def identifier (name : Text) : Token := ⟨.identifier, name⟩

def operator (symbol : Text) : Token := ⟨.operator, symbol⟩

def binary (op : BinaryOperator) : Token := operator (Operator.binary op).symbol

def opening : Token := ⟨.opening, ['(']⟩

def closing : Token := ⟨.closing, [')']⟩

/-- The texts of the tokens with a space between neighbours. -/
def spaced (tokens : List Token) : Text := Text.spaced (tokens.map Token.text)

end Token
end Calculator
