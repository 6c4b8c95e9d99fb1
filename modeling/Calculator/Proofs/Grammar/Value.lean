import Calculator.Proofs.Grammar.Derivation
import Calculator.Proofs.Postfix.Operand

/-!
# Values of expressions

`Derivation.value` computes along the tree, the left operand of an operator first. The postfix
listing of a tree computes that value above any stack, `computes_postorder`.
-/

namespace Calculator.Derivation

variable (a : Arithmetic)

/-- What a call yields; an unknown name is a fault whatever its argument is. -/
def applyNamed (name : Text) (x : Float) : Except Fault Float :=
  match FunctionName.ofName? name with
  | none => .error (.unknownFunction name)
  | some f => a.apply f x

/-- The outcome of computing along a tree. -/
def value {l : Level} : Derivation l → Except Fault Float
  | number text => (Numeral.double? text).elim (.error (.unreadable text)) .ok
  | call name argument => argument.value.bind (applyNamed a name)
  | group inner => inner.value
  | single atom => atom.value
  | power base exponent => base.value.bind fun x => exponent.value.map fun y => a.binary .pow x y
  | negation operand => operand.value.map fun y => a.binary .sub 0 y
  | reciprocal operand => operand.value.map Arithmetic.reciprocal
  | factor f => f.value
  | product left op _ right => left.value.bind fun x => right.value.map fun y => a.binary op x y
  | term t => t.value
  | sum left op _ right => left.value.bind fun x => right.value.map fun y => a.binary op x y

theorem double?_zero : Numeral.double? ['0'] = some 0 := by decide +kernel

theorem computes_zero : a.Computes [Token.number ['0']] (.ok 0) := by
  have h := Arithmetic.computes_number (a := a) ['0']
  rwa [double?_zero] at h

theorem computes_postorder {l : Level} (d : Derivation l) :
    a.Computes d.postorder (d.value a) := by
  induction d with
  | number text => exact Arithmetic.computes_number text
  | call name argument ih =>
    have hstep (v : Float) (stack : List Float) :
        a.step (v :: stack) (Token.identifier name) = (applyNamed a name v).map (· :: stack) := by
      change a.stepCall (v :: stack) name = _
      unfold Arithmetic.stepCall applyNamed
      cases FunctionName.ofName? name <;> rfl
    exact ih.unary hstep
  | group inner ih => exact ih
  | single atom ih => exact ih
  | power base exponent ihb ihe => exact ihb.binary ihe
  | negation operand ih => exact (computes_zero a).binary ih
  | reciprocal operand ih => exact ih.reciprocal
  | factor f ih => exact ih
  | product left op hop right ihl ihr => exact ihl.binary ihr
  | term t ih => exact ih
  | sum left op hop right ihl ihr => exact ihl.binary ihr

theorem run_postorder {l : Level} (d : Derivation l) : a.run d.postorder = d.value a :=
  (computes_postorder a d).run_eq

end Calculator.Derivation
