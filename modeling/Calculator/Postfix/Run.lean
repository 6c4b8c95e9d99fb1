import Calculator.Arithmetic.Basic
import Calculator.Number.Numeral
import Calculator.Token.Basic

/-!
# Computing in postfix order

A number is put on the stack, a function replaces the topmost value, and an operator replaces its
operands, the right one being topmost. A name is looked up before its operand is missed. At the end
one value must be left. Tokens that are neither numbers nor names count by their text.
-/

namespace Calculator.Arithmetic

variable (a : Arithmetic)

def stepNumber (stack : List Float) (literal : Text) : Except Fault (List Float) :=
  match Numeral.double? literal with
  | none => .error (.unreadable literal)
  | some x => .ok (x :: stack)

def stepCall (stack : List Float) (name : Text) : Except Fault (List Float) :=
  match FunctionName.ofName? name, stack with
  | none, _ => .error (.unknownFunction name)
  | some _, [] => .error (.missingOperand name)
  | some f, x :: rest => (a.apply f x).map (· :: rest)

def stepOperator (stack : List Float) (symbol : Text) : Except Fault (List Float) :=
  match Operator.ofSymbol? symbol, stack with
  | none, _ => .error (.unknownOperator symbol)
  | some .reciprocal, x :: rest => .ok (reciprocal x :: rest)
  | some (.binary op), y :: x :: rest => .ok (a.binary op x y :: rest)
  | some _, _ => .error (.missingOperand symbol)

def step (stack : List Float) (t : Token) : Except Fault (List Float) :=
  match t.kind with
  | .number => stepNumber stack t.text
  | .identifier => a.stepCall stack t.text
  | _ => a.stepOperator stack t.text

/-- The only value on the stack. -/
def result : List Float → Except Fault Float
  | [x] => .ok x
  | stack => .error (.leftover stack.length)

/-- The value of tokens in postfix order. -/
def run (tokens : List Token) : Except Fault Float :=
  (tokens.foldlM a.step []).bind result

end Calculator.Arithmetic
