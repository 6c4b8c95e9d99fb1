import Calculator.CommandLine.Options
import Calculator.Expression.Evaluation
import Calculator.Number.Places

/-!
# Sessions

A session answers lines one after the other: a value or a listing goes to the output, a fault to the
error output, and blank lines are passed over. Lines come from the command line, from a prompt, or
from the standard input. A fault does not end a session; a value that cannot be rounded as asked
does.
-/

namespace Calculator.CommandLine

/-- What a session can see of its surroundings: the standard input, the lines that would be typed at
a prompt and whether an interrupt ends them, and whether there is a terminal. -/
structure Surroundings where
  input : Text
  typed : List Text
  interrupted : Bool
  terminal : Bool

/-- Why a value cannot be rounded: it is too large once rounded, or no places are stated. -/
inductive RoundingFault
  | overflow
  | unstated
deriving DecidableEq, Repr

def RoundingFault.message : RoundingFault → Text
  | .overflow => "rounded value too large to represent".toList
  | .unstated => "no decimal places to round to".toList

inductive Ending
  | exit (status : Nat)
  | unrounded (reason : RoundingFault)
deriving DecidableEq, Repr

/-- The lines of both outputs, and how the session ended. -/
structure Transcript where
  output : List Text
  errors : List Text
  ending : Ending
deriving DecidableEq

/-- What a line leads to. -/
inductive Reply
  | line (t : Text)
  | fault (f : Fault)
  | unrounded (reason : RoundingFault)
deriving DecidableEq

def programName : Text := "infixcalc".toList

def dumpHeading : Text := "<tokens>\t<postfix>".toList

/-- The usage of the command line, one line for each switch. -/
def helpLines : List Text :=
  "Infix scientific calculator".toList :: Switch.all.map fun s =>
    "  -".toList ++ s.letter :: ", ".toList ++ s.long

/-- The grammar of tokens as one pattern with a named group for each kind. -/
def grammar : Text :=
  "(?<number>[\\d.]+)|(?<identifier>\\p\x7bL\x7d+)|".toList ++
    "(?<operator>(?:\\+|\\-|\\*|/|\\^))|(?<lparen>\\()|(?<rparen>\\))".toList

/-- The signs on the keys of a keypad as operators. -/
def keypadSymbol (c : Char) : Char :=
  if c = '×' then '*' else if c = '÷' then '/' else if c = '−' then '-' else c

/-- The expression on a line, or `none` on a blank one. -/
def expression? (line : Text) : Option Text :=
  match Text.trim isBlank line with
  | [] => none
  | t => some (t.map keypadSymbol)

namespace Options

variable (f : Elementary) (o : Options)

def settings : Settings :=
  ⟨⟨f, if o.radians then .radians else .degrees⟩, o.substitution, none⟩

/-- A value rounded to the precision asked for. -/
def present (x : Float) : Reply :=
  match o.precision with
  | .full => .line (Double.display x)
  | .places n =>
    (Double.round? n x).elim (.unrounded .overflow) fun x => .line (Double.display x)
  | .unstated => .unrounded .unstated

def evaluateExpression (expression : Text) : Logged Reply :=
  ((o.settings f).evaluate expression).map fun
    | .ok x => o.present x
    | .error fault => .fault fault

/-- The tokens of an expression and, after a tab, their postfix order. -/
def dumpExpression (expression : Text) : Logged Reply :=
  (((o.settings f).prepare expression).bind (o.settings f).listing).map fun
    | .ok (tokens, ordered) => .line (Token.spaced tokens ++ '\t' :: Token.spaced ordered)
    | .error fault => .fault fault

def reply (expression : Text) : Logged Reply :=
  match o.task with
  | .dump => o.dumpExpression f expression
  | _ => o.evaluateExpression f expression

/-- What the error output holds of a record. -/
def debugLine (r : Record) : Text :=
  "DEBUG:".toList ++ programName ++ '.' :: r.origin ++ ':' :: r.message

def errorLine (fault : Fault) : Text := "Error: ".toList ++ fault.message

/-- Answers expressions in order, up to a value that cannot be rounded. -/
def answer (ending : Ending) : List Text → Transcript
  | [] => ⟨[], [], ending⟩
  | expression :: rest =>
    let ⟨records, reply⟩ := o.reply f expression
    let notes := if o.verbose then records.map debugLine else []
    match reply with
    | .line t =>
      let later := answer ending rest
      ⟨t :: later.output, notes ++ later.errors, later.ending⟩
    | .fault fault =>
      let later := answer ending rest
      ⟨later.output, notes ++ errorLine fault :: later.errors, later.ending⟩
    | .unrounded reason => ⟨[], notes, .unrounded reason⟩

/-- What is written before any line is answered. -/
def heading : List Text :=
  match o.task with
  | .evaluate => []
  | .dump => [dumpHeading]
  | .grammar => [grammar]

/-- Lines are asked for at a prompt: one was given and is not empty, or there is a terminal. -/
def prompts (s : Surroundings) : Bool := o.prompt.any (!·.isEmpty) || s.terminal

/-- The lines to answer and how the session ends after them. -/
def lines (s : Surroundings) : List Text × Ending :=
  match o.task, o.expressions with
  | .grammar, _ => ([], .exit 0)
  | _, some lines => (lines, .exit 0)
  | _, none =>
    if o.prompts s then (s.typed, .exit (if s.interrupted then 1 else 0))
    else (Text.pieces (fun c => c = '\n' || c = '\r') s.input, .exit 0)

def session (s : Surroundings) : Transcript :=
  let (lines, ending) := o.lines s
  let answers := o.answer f ending (lines.filterMap expression?)
  { answers with output := o.heading ++ answers.output }

end Options

def misuseLine (m : Misuse) : Text := programName ++ ": error: ".toList ++ m.message

/-- Runs the calculator on the words of a command line. -/
def run (f : Elementary) (words : List Text) (s : Surroundings) : Transcript :=
  match Options.ofWords words with
  | .error .help => ⟨helpLines, [], .exit 0⟩
  | .error (.misuse m) => ⟨[], [misuseLine m], .exit 2⟩
  | .ok o => o.session f s

end Calculator.CommandLine
