import Calculator.Postfix.Run
import Calculator.Proofs.Outcome
import Calculator.Token.Scan

/-!
# Operands in postfix order

A computation that succeeds on a stack succeeds above any other stack and leaves that one untouched.
So tokens with a value act as one number wherever they stand, `run_append_congr`. `Computes` says
the same of tokens that may also fail: they have one outcome above every stack.
-/

namespace Calculator.Arithmetic

open Outcome

variable {a : Arithmetic} {stack stack' : List Float} {ts us : List Token} {t : Token} {v : Float}

theorem stepCall_append {name : Text} (h : a.stepCall stack name = .ok stack')
    (below : List Float) : a.stepCall (stack ++ below) name = .ok (stack' ++ below) := by
  unfold stepCall at h ⊢
  cases hf : FunctionName.ofName? name with
  | none => simp [hf] at h
  | some f =>
    cases stack with
    | nil => simp [hf] at h
    | cons x rest =>
      simp only [hf] at h
      obtain ⟨y, hy, rfl⟩ := exists_of_map_eq_ok h
      simp [hy, Except.map]

theorem stepOperator_append {symbol : Text} (h : a.stepOperator stack symbol = .ok stack')
    (below : List Float) : a.stepOperator (stack ++ below) symbol = .ok (stack' ++ below) := by
  unfold stepOperator at h ⊢
  cases hop : Operator.ofSymbol? symbol with
  | none => simp [hop] at h
  | some op =>
    cases op with
    | reciprocal =>
      cases stack with
      | nil => simp [hop] at h
      | cons x rest =>
        simp only [hop, Except.ok.injEq] at h
        simp [← h]
    | binary op =>
      match stack, h with
      | [], h => simp [hop] at h
      | [x], h => simp [hop] at h
      | y :: x :: rest, h =>
        simp only [hop, Except.ok.injEq] at h
        simp [← h]

theorem step_append (h : a.step stack t = .ok stack') (below : List Float) :
    a.step (stack ++ below) t = .ok (stack' ++ below) := by
  unfold step at h ⊢
  cases hk : t.kind with
  | number =>
    simp only [hk] at h ⊢
    unfold stepNumber at h ⊢
    split at h
    · cases h
    · cases h
      rfl
  | identifier =>
    simp only [hk] at h ⊢
    exact stepCall_append h below
  | operator | opening | closing =>
    simp only [hk] at h ⊢
    exact stepOperator_append h below

theorem foldlM_step_append (h : ts.foldlM a.step stack = .ok stack') (below : List Float) :
    ts.foldlM a.step (stack ++ below) = .ok (stack' ++ below) := by
  induction ts generalizing stack with
  | nil =>
    cases h
    rfl
  | cons t ts ih =>
    rw [List.foldlM_cons] at h ⊢
    obtain ⟨next, hnext, hrest⟩ := exists_of_bind_eq_ok h
    rw [step_append hnext below]
    exact ih hrest

theorem eq_of_result_eq_ok (h : result stack = .ok v) : stack = [v] := by
  match stack, h with
  | [x], h =>
    cases h
    rfl

theorem foldlM_step_of_run (h : a.run ts = .ok v) (stack : List Float) :
    ts.foldlM a.step stack = .ok (v :: stack) := by
  obtain ⟨left, hleft, hresult⟩ := exists_of_bind_eq_ok h
  rw [eq_of_result_eq_ok hresult] at hleft
  exact foldlM_step_append hleft stack

/-- Tokens with one value may stand for each other. -/
theorem run_append_congr (ht : a.run ts = .ok v) (hu : a.run us = .ok v)
    (before after : List Token) :
    a.run (before ++ (ts ++ after)) = a.run (before ++ (us ++ after)) := by
  unfold run
  rw [List.foldlM_append, List.foldlM_append]
  cases before.foldlM a.step [] with
  | error fault => rfl
  | ok stack =>
    change ((ts ++ after).foldlM a.step stack).bind result =
      ((us ++ after).foldlM a.step stack).bind result
    rw [List.foldlM_append, List.foldlM_append, foldlM_step_of_run ht, foldlM_step_of_run hu]

variable (a) in
/-- The tokens have the same outcome above every stack, one value on top of it or a fault. -/
def Computes (ts : List Token) (outcome : Except Fault Float) : Prop :=
  ∀ stack, ts.foldlM a.step stack = outcome.map (· :: stack)

variable {x y : Except Fault Float}

theorem Computes.run_eq (h : a.Computes ts x) : a.run ts = x := by
  rw [run, h []]
  cases x <;> rfl

theorem computes_number (text : Text) :
    a.Computes [Token.number text]
      ((Numeral.double? text).elim (.error (.unreadable text)) .ok) := by
  intro stack
  rw [List.foldlM_cons]
  change (stepNumber stack text).bind pure = _
  unfold stepNumber
  cases Numeral.double? text <;> rfl

theorem Computes.unary {f : Float → Except Fault Float} (h : a.Computes ts x)
    (hf : ∀ v stack, a.step (v :: stack) t = (f v).map (· :: stack)) :
    a.Computes (ts ++ [t]) (x.bind f) := by
  intro stack
  rw [List.foldlM_append, h stack]
  cases x with
  | error fault => rfl
  | ok v =>
    change (a.step (v :: stack) t).bind pure = _
    rw [hf]
    cases hv : f v <;> simp [Except.bind, Except.map, hv, pure, Except.pure]

/-- A token that takes the two topmost values, the left operand lying below the right one. -/
theorem Computes.operation {f : Float → Float → Float} (hx : a.Computes ts x) (hy : a.Computes us y)
    (hf : ∀ v w stack, a.step (w :: v :: stack) t = .ok (f v w :: stack)) :
    a.Computes (ts ++ us ++ [t]) (x.bind fun v => y.map fun w => f v w) := by
  intro stack
  rw [List.append_assoc, List.foldlM_append, hx stack]
  cases x with
  | error fault => rfl
  | ok v =>
    change (us ++ [t]).foldlM a.step (v :: stack) = _
    rw [List.foldlM_append, hy]
    cases y with
    | error fault => rfl
    | ok w =>
      change (a.step (w :: v :: stack) t).bind pure = _
      rw [hf]
      rfl

theorem stepOperator_binary (op : BinaryOperator) (v w : Float) (stack : List Float) :
    a.stepOperator (w :: v :: stack) (Operator.binary op).symbol =
      .ok (a.binary op v w :: stack) := by
  simp only [stepOperator, Operator.ofSymbol?_symbol]

theorem Computes.binary {op : BinaryOperator} (hx : a.Computes ts x) (hy : a.Computes us y) :
    a.Computes (ts ++ us ++ [Token.binary op])
      (x.bind fun v => y.map fun w => a.binary op v w) :=
  hx.operation hy (stepOperator_binary op)

theorem Computes.reciprocal (h : a.Computes ts x) :
    a.Computes (ts ++ [Token.reciprocal]) (x.map Arithmetic.reciprocal) := by
  rw [map_eq_bind]
  exact h.unary fun v stack => rfl

end Calculator.Arithmetic
