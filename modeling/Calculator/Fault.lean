import Calculator.Text.Quoted
import Calculator.Number.Notation

/-!
# Faults

Why an expression has no value, each cause with what it is about, and the stage of evaluation that
finds it. `Fault.message` is the wording.
-/

namespace Calculator

/-- Cutting the text into tokens, ordering them, and computing. -/
inductive Stage
  | tokenize
  | convert
  | evaluate
deriving DecidableEq, Repr

inductive Fault
  | invalidCharacter (c : Char)
  | mismatchedParentheses
  | missingOperand (symbol : Text)
  | unknownFunction (name : Text)
  | unknownOperator (symbol : Text)
  | factorialDomain (argument : Float)
  | unreadable (literal : Text)
  | leftover (count : Nat)
deriving DecidableEq

namespace Fault

def stage : Fault → Stage
  | .invalidCharacter _ => .tokenize
  | .mismatchedParentheses => .convert
  | _ => .evaluate

def message : Fault → Text
  | .invalidCharacter c => "Invalid character ".toList ++ Text.quoted [c]
  | .mismatchedParentheses => "Mismatched parentheses".toList
  | .missingOperand symbol => "Missing operand for ".toList ++ symbol
  | .unknownFunction name => "Unknown function ".toList ++ Text.quoted name
  | .unknownOperator symbol => "Unknown operator ".toList ++ Text.quoted symbol
  | .factorialDomain x =>
    "Factorial only for non-negative integers, not ".toList ++ Double.display x
  | .unreadable literal => "Cannot convert ".toList ++ literal
  | .leftover count =>
    "Invalid expression: ".toList ++ Nat.toDigits 10 count ++ " value(s) left".toList

end Fault
end Calculator
