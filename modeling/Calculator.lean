import Calculator.Text.Basic
import Calculator.Text.Letter
import Calculator.Text.Digit
import Calculator.Text.Blank
import Calculator.Text.Printable
import Calculator.Text.Quoted
import Calculator.Number.Decimal
import Calculator.Number.Double
import Calculator.Number.Shortest
import Calculator.Number.Notation
import Calculator.Number.Numeral
import Calculator.Number.Places
import Calculator.Operator
import Calculator.FunctionName
import Calculator.Fault
import Calculator.Arithmetic.Elementary
import Calculator.Arithmetic.Power
import Calculator.Arithmetic.Factorial
import Calculator.Arithmetic.Basic
import Calculator.Token.Basic
import Calculator.Token.Constant
import Calculator.Token.Scan
import Calculator.Postfix.Conversion
import Calculator.Postfix.Run
import Calculator.Expression.Record
import Calculator.Expression.Preparation
import Calculator.Expression.Evaluation
import Calculator.CommandLine.Switch
import Calculator.CommandLine.Options
import Calculator.CommandLine.Session
import Calculator.Main
import Calculator.Proofs.Grammar.Derivation
import Calculator.Proofs.Postfix.Expression
import Calculator.Proofs.Postfix.Group
import Calculator.Proofs.Outcome
import Calculator.Proofs.Postfix.Operand
import Calculator.Proofs.Expression.Inline
import Calculator.Proofs.Grammar.Value
import Calculator.Proofs.Expression.Congruence
import Calculator.Proofs.Expression.Decimal
import Calculator.Proofs.Expression.Reciprocal
import Calculator.Proofs.Postfix.Tree
import Calculator.Proofs.Postfix.Nesting
import Calculator.Proofs.Postfix.Conservation
import Calculator.Proofs.Token.Shape
import Calculator.Proofs.Postfix.Progress
import Calculator.Proofs.Expression.Diagnosis
import Calculator.Proofs.Number.Literal
import Calculator.Proofs.Grammar.Joined
import Calculator.Proofs.Expression.Conventional
import Calculator.Proofs.Expression.Acceptance
import Calculator.Proofs.Expression.Failure
import Calculator.Proofs.Expression.Blank
import Calculator.Proofs.Token.Canonical
import Calculator.Proofs.Token.Constant
import Calculator.Proofs.Expression.Substitution
import Calculator.Proofs.Postfix.Rearrangement
import Calculator.Proofs.Postfix.Replacement
import Calculator.Proofs.CommandLine.Words
import Calculator.Proofs.CommandLine.Lines
import Calculator.Proofs.Number.Rounding
import Calculator.Proofs.Text.Printable
import Calculator.Proofs.Expression.Message
import Calculator.Proofs.CommandLine.Answers
import Calculator.Proofs.Number.Display
import Calculator.Proofs.Postfix.Refusal
import Calculator.Proofs.Postfix.BareCall
import Calculator.Proofs.Token.Word
import Calculator.Proofs.CommandLine.Dump
import Calculator.Proofs.Postfix.Ascent
import Calculator.Proofs.Expression.Trace
import Calculator.Proofs.Number.Product
import Calculator.Proofs.Arithmetic.Factorial
import Calculator.Proofs.Number.Negation
import Calculator.Proofs.Arithmetic.Power
