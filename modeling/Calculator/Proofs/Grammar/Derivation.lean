import Calculator.Token.Scan

/-!
# The grammar of expressions

Expressions are sums of terms, terms are products of factors, and a factor is an atom, a power of
one, a negation or a reciprocal; an atom is a number, a call or a group. `Derivation l` holds the
derivation trees at the level `l` of this grammar. `Derivation.tokens` is the list that a tree
derives and `Derivation.postorder` lists its nodes after their operands.
-/

namespace Calculator

/-- The levels of the grammar, the loosest first. -/
inductive Level
  | expression
  | term
  | factor
  | atom
deriving DecidableEq, Repr

inductive Derivation : Level → Type
  | number (text : Text) : Derivation .atom
  | call (name : Text) (argument : Derivation .expression) : Derivation .atom
  | group (inner : Derivation .expression) : Derivation .atom
  | single (a : Derivation .atom) : Derivation .factor
  | power (base : Derivation .atom) (exponent : Derivation .factor) : Derivation .factor
  | negation (operand : Derivation .factor) : Derivation .factor
  | reciprocal (operand : Derivation .factor) : Derivation .factor
  | factor (f : Derivation .factor) : Derivation .term
  | product (left : Derivation .term) (op : BinaryOperator) (hop : op = .mul ∨ op = .div)
      (right : Derivation .factor) : Derivation .term
  | term (t : Derivation .term) : Derivation .expression
  | sum (left : Derivation .expression) (op : BinaryOperator) (hop : op = .add ∨ op = .sub)
      (right : Derivation .term) : Derivation .expression

namespace Derivation

/-- The tokens that a tree derives. -/
def tokens {l : Level} : Derivation l → List Token
  | number text => [Token.number text]
  | call name argument =>
    Token.identifier name :: Token.opening :: (argument.tokens ++ [Token.closing])
  | group inner => Token.opening :: (inner.tokens ++ [Token.closing])
  | single a => a.tokens
  | power base exponent => base.tokens ++ Token.binary .pow :: exponent.tokens
  | negation operand => Token.binary .sub :: operand.tokens
  | reciprocal operand => Token.reciprocal :: operand.tokens
  | factor f => f.tokens
  | product left op _ right => left.tokens ++ Token.binary op :: right.tokens
  | term t => t.tokens
  | sum left op _ right => left.tokens ++ Token.binary op :: right.tokens

/-- The tree in postfix order; a negation subtracts its operand from zero. -/
def postorder {l : Level} : Derivation l → List Token
  | number text => [Token.number text]
  | call name argument => argument.postorder ++ [Token.identifier name]
  | group inner => inner.postorder
  | single a => a.postorder
  | power base exponent => base.postorder ++ exponent.postorder ++ [Token.binary .pow]
  | negation operand => Token.number ['0'] :: operand.postorder ++ [Token.binary .sub]
  | reciprocal operand => operand.postorder ++ [Token.reciprocal]
  | factor f => f.postorder
  | product left op _ right => left.postorder ++ right.postorder ++ [Token.binary op]
  | term t => t.postorder
  | sum left op _ right => left.postorder ++ right.postorder ++ [Token.binary op]

theorem head_tokens_atom (a : Derivation .atom) :
    ∃ t rest, a.tokens = t :: rest ∧ t.kind ≠ .operator := by
  cases a with
  | number text => exact ⟨_, _, rfl, by simp [Token.number]⟩
  | call name argument => exact ⟨_, _, rfl, by simp [Token.identifier]⟩
  | group inner => exact ⟨_, _, rfl, by simp [Token.opening]⟩

/-- Only a reciprocal begins with the sign of reciprocals. -/
theorem exists_of_tokens_eq_cons {f : Derivation .factor} {rest : List Token}
    (h : f.tokens = Token.reciprocal :: rest) :
    ∃ operand : Derivation .factor, f = .reciprocal operand ∧ operand.tokens = rest := by
  have hatom (a : Derivation .atom) (more : List Token) :
      a.tokens ++ more ≠ Token.reciprocal :: rest := by
    intro ha
    obtain ⟨t, ts, hts, ht⟩ := a.head_tokens_atom
    rw [hts, List.cons_append, List.cons.injEq] at ha
    exact ht (by rw [ha.1]; rfl)
  cases f with
  | single a => exact absurd ((List.append_nil _).trans h) (hatom a [])
  | power base exponent => exact absurd h (hatom base _)
  | negation operand =>
    have hsign := (List.cons.inj h).1
    exact absurd hsign (by decide)
  | reciprocal operand => exact ⟨operand, rfl, (List.cons.inj h).2⟩

end Derivation
end Calculator
