import Calculator.Text.Basic

/-!
# Operators

The five binary operators and the reciprocal `1/`, which stands before its operand. Each has one
symbol, by which tokens refer to it, and a precedence; only the power associates to the right.
-/

namespace Calculator

inductive BinaryOperator
  | add
  | sub
  | mul
  | div
  | pow
deriving DecidableEq, Repr

inductive Operator
  | binary (operator : BinaryOperator)
  | reciprocal
deriving DecidableEq, Repr

namespace Operator

def all : List Operator :=
  [.binary .add, .binary .sub, .binary .mul, .binary .div, .binary .pow, .reciprocal]

theorem mem_all (operator : Operator) : operator ∈ all := by
  rcases operator with op | _
  · cases op <;> simp [all]
  · simp [all]

def symbol : Operator → Text
  | .binary .add => ['+']
  | .binary .sub => ['-']
  | .binary .mul => ['*']
  | .binary .div => ['/']
  | .binary .pow => ['^']
  | .reciprocal => ['1', '/']

/-- The operator with a given symbol. -/
def ofSymbol? (symbol : Text) : Option Operator := all.find? fun op => op.symbol == symbol

@[simp] theorem ofSymbol?_symbol (op : Operator) : ofSymbol? op.symbol = some op := by
  rcases op with op | _
  · cases op <;> rfl
  · rfl

theorem symbol_of_ofSymbol? {symbol : Text} {op : Operator} (h : ofSymbol? symbol = some op) :
    op.symbol = symbol := by
  simpa using List.find?_some h

/-- A symbol belongs to at most one operator. -/
theorem ofSymbol?_eq_some_iff {symbol : Text} {op : Operator} :
    ofSymbol? symbol = some op ↔ symbol = op.symbol :=
  ⟨fun h => (symbol_of_ofSymbol? h).symm, fun h => h ▸ ofSymbol?_symbol op⟩

def precedence : Operator → Nat
  | .binary .add | .binary .sub => 2
  | .binary .mul | .binary .div => 3
  | .binary .pow | .reciprocal => 4

def associatesRight (op : Operator) : Bool := op == .binary .pow

/-- An operator that stands before its only operand. -/
def leads (op : Operator) : Bool := op == .reciprocal

end Operator
end Calculator
