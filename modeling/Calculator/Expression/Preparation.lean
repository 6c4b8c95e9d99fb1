import Calculator.Arithmetic.Basic
import Calculator.Expression.Record
import Calculator.Text.Blank
import Calculator.Token.Constant

/-!
# Preparing the text of an expression

A leading `1/` is the reciprocal of everything after it. When that remainder has a value with a
finite reciprocal, the whole text is replaced by the decimal of the reciprocal, written without an
exponent; otherwise the text is kept, and the sign is read later as an operator of its own. Then
white space is removed, and constants are replaced in the text if that is asked for.
-/

namespace Calculator

/-- How expressions are evaluated: the arithmetic, whether constants are replaced in the text rather
than recognised as names, and how many leading reciprocals may be expanded inside one another. -/
structure Settings where
  arithmetic : Arithmetic
  substitution : Bool
  nesting : Option Nat

/-- The settings of a calculator that is not told otherwise. -/
def Settings.standard (f : Elementary) : Settings := ⟨⟨f, .degrees⟩, false, none⟩

/-- The outcome of evaluating an expression, with its records. -/
abbrev Evaluated := Logged (Except Fault Float)

/-- The text that stands for a leading reciprocal, given the outcome of its remainder if that was
evaluated. -/
def reciprocalText (text : Text) : Option Evaluated → Logged Text
  | none => ⟨[.kept text .tooDeep], text⟩
  | some ⟨records, .error fault⟩ => ⟨records ++ [.kept text (.failed fault)], text⟩
  | some ⟨records, .ok value⟩ =>
    let reciprocal := Arithmetic.reciprocal value
    if reciprocal.isFinite then ⟨records, Double.plain reciprocal⟩
    else ⟨records ++ [.kept text (.notFinite reciprocal)], text⟩

/-- What follows a leading `1/`. -/
def remainder? : Text → Option Text
  | '1' :: '/' :: rest => some rest
  | _ => none

namespace Settings

variable (s : Settings)

/-- The settings for a remainder; `none` when no further expansion is allowed. -/
def deeper : Option Settings :=
  match s.nesting with
  | none => some s
  | some 0 => none
  | some (n + 1) => some { s with nesting := some n }

/-- The text without white space, constants replaced if they are to be. -/
def tidy (t : Text) : Text :=
  let t := t.filter fun c => !isSpace c
  if s.substitution then Text.substituteConstants t else t

/-- Prepares a text, given how remainders are evaluated. -/
def prepareWith (evaluate : Text → Option Evaluated) (text : Text) : Logged Text :=
  match remainder? text with
  | none => ⟨[], s.tidy text⟩
  | some rest => (reciprocalText text (evaluate rest)).map s.tidy

end Settings
end Calculator
