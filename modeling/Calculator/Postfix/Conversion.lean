import Calculator.Token.Basic

/-!
# From infix to postfix order

Tokens are read from the left. Numbers pass through; operators and names wait on a stack until what
they apply to has passed. An operator releases the waiting operators that bind more tightly, down to
the nearest name or parenthesis; a closing parenthesis releases everything down to its opening one
and then the name in front of that. A minus without a left operand is the negation: a zero passes in
its place and a subtraction waits that binds like a power. The conversion fails exactly on
parentheses that do not match.
-/

namespace Calculator.Postfix

/-- What waits on the stack: an open parenthesis, a name, an operator, or a negation. -/
inductive Pending
  | opening
  | call (name : Text)
  | operator (symbol : Text)
  | negation
deriving DecidableEq, Repr

namespace Pending

/-- The token that passes when the entry is released. -/
def token? : Pending → Option Token
  | .opening => none
  | .call name => some (Token.identifier name)
  | .operator symbol => some (Token.operator symbol)
  | .negation => some (Token.operator ['-'])

/-- How tightly a waiting operator binds: an unknown one least of all, the negation like a power. -/
def precedence? : Pending → Option Nat
  | .opening | .call _ => none
  | .operator symbol => some ((Operator.ofSymbol? symbol).elim 0 Operator.precedence)
  | .negation => some (Operator.precedence (.binary .pow))

/-- The entry must pass before the incoming operator is put on the stack. -/
def givesWay (incoming : Operator) (top : Pending) : Bool :=
  match top.precedence? with
  | none => false
  | some p => decide (incoming.precedence < p) ||
      (p == incoming.precedence && !incoming.associatesRight)

end Pending

/-- The tokens of released entries, topmost first. -/
def release (entries : List Pending) : List Token := entries.filterMap Pending.token?

/-- A minus sign is a negation at the start and after an operator or an opening parenthesis. -/
def isNegation (previous : Option Kind) (symbol : Text) : Bool :=
  symbol == ['-'] && (previous == none || previous == some .operator || previous == some .opening)

/-- The tokens that pass when an operator comes in, and the stack that it leaves. -/
def stepOperator (stack : List Pending) (previous : Option Kind) (symbol : Text) :
    List Token × List Pending :=
  if isNegation previous symbol then ([Token.number ['0']], .negation :: stack)
  else match Operator.ofSymbol? symbol with
    | some (.binary op) =>
      (release (stack.takeWhile (Pending.givesWay (.binary op))),
        .operator symbol :: stack.dropWhile (Pending.givesWay (.binary op)))
    | _ => ([], .operator symbol :: stack)

/-- The tokens that pass when a parenthesis closes, and the stack that it leaves; `none` when no
parenthesis is open. -/
def stepClosing (stack : List Pending) : Option (List Token × List Pending) :=
  let inner := stack.takeWhile (· ≠ .opening)
  match stack.dropWhile (· ≠ .opening) with
  | [] => none
  | _ :: .call name :: outer => some (release inner ++ [Token.identifier name], outer)
  | _ :: outer => some (release inner, outer)

/-- One token: what passes, and the stack it leaves. -/
def step (stack : List Pending) (previous : Option Kind) (t : Token) :
    Option (List Token × List Pending) :=
  match t.kind with
  | .number => some ([t], stack)
  | .identifier => some ([], .call t.text :: stack)
  | .operator => some (stepOperator stack previous t.text)
  | .opening => some ([], .opening :: stack)
  | .closing => stepClosing stack

/-- Everything that waits passes at the end, unless a parenthesis is still open. -/
def finish (stack : List Pending) : Option (List Token) :=
  if .opening ∈ stack then none else some (release stack)

def convertFrom (stack : List Pending) (previous : Option Kind) : List Token → Option (List Token)
  | [] => finish stack
  | t :: rest =>
    (step stack previous t).bind fun (passed, stack) =>
      (convertFrom stack (some t.kind) rest).map (passed ++ ·)

/-- The tokens in postfix order; `none` when the parentheses do not match. -/
def ofInfix? (tokens : List Token) : Option (List Token) := convertFrom [] none tokens

end Calculator.Postfix
