import Calculator.Expression.Preparation
import Calculator.Postfix.Conversion
import Calculator.Postfix.Run
import Calculator.Token.Scan

/-!
# Evaluating expressions

An expression is prepared, cut into tokens, put into postfix order and computed. Preparing a leading
reciprocal evaluates its remainder first, by the same rules; a remainder is shorter than its
expression, so evaluation is a recursion on the text. `evaluate_eq` says that this is the pipeline,
and `value_evaluate` and `records_evaluate` what it yields.
-/

namespace Calculator.Settings

variable (s : Settings)

/-- The tokens of a prepared text, and their postfix order. -/
def listing (prepared : Text) : Logged (Except Fault (List Token × List Token)) :=
  match Token.scan (!s.substitution) prepared with
  | .error fault => ⟨[], .error fault⟩
  | .ok tokens =>
    match Postfix.ofInfix? tokens with
    | none => ⟨[.tokens tokens], .error .mismatchedParentheses⟩
    | some ordered => ⟨[.tokens tokens, .converted ordered], .ok (tokens, ordered)⟩

/-- The tokens of a prepared text in postfix order. -/
def order (prepared : Text) : Logged (Except Fault (List Token)) :=
  (s.listing prepared).map (Except.map Prod.snd)

/-- The record that preparing changed the text. -/
def preparation (text prepared : Text) : List Record :=
  if prepared = text then [] else [.prepared text prepared]

/-- The postfix order of a text, once it is prepared. -/
def orderPrepared (text : Text) (prepared : Logged Text) : Logged (Except Fault (List Token)) :=
  prepared.bind fun t => ⟨preparation text t ++ (s.order t).records, (s.order t).value⟩

/-- The value of a text, once it is prepared. -/
def compute (text : Text) (prepared : Logged Text) : Evaluated :=
  (s.orderPrepared text prepared).map fun ordered => ordered.bind s.arithmetic.run

/-- The value of an expression. -/
def evaluate (s : Settings) (text : Text) : Evaluated :=
  match text with
  | '1' :: '/' :: rest =>
    let remainder := match s.deeper with
      | none => none
      | some s => some (evaluate s rest)
    s.compute ('1' :: '/' :: rest) ((reciprocalText ('1' :: '/' :: rest) remainder).map s.tidy)
  | text => s.compute text ⟨[], s.tidy text⟩

/-- The value of a remainder, if it may be evaluated. -/
def evaluateRemainder (rest : Text) : Option Evaluated := s.deeper.map (evaluate · rest)

/-- The text of an expression that is cut into tokens. -/
def prepare (text : Text) : Logged Text := s.prepareWith s.evaluateRemainder text

/-- The tokens of an expression in postfix order. -/
def ordered (text : Text) : Logged (Except Fault (List Token)) :=
  s.orderPrepared text (s.prepare text)

theorem evaluate_eq (text : Text) : s.evaluate text = s.compute text (s.prepare text) := by
  unfold evaluate prepare prepareWith
  split
  · next rest =>
    simp only [remainder?, evaluateRemainder]
    cases s.deeper <;> rfl
  · next h =>
    have hr : remainder? text = none := by
      unfold remainder?
      split
      · next rest => exact absurd rfl (h rest)
      · rfl
    rw [hr]

theorem value_evaluate (text : Text) :
    (s.evaluate text).value = (s.ordered text).value.bind s.arithmetic.run := by
  rw [evaluate_eq]
  rfl

theorem records_evaluate (text : Text) :
    (s.evaluate text).records = (s.ordered text).records := by
  rw [evaluate_eq]
  rfl

end Calculator.Settings
