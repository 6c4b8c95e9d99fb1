import Calculator.Proofs.CommandLine.Answers
import Calculator.Proofs.Token.Word

/-!
# Dumped programs

With the dump switch a line that is not blank is answered by its tokens and their postfix order, or
by the fault that cutting or ordering them has. The dump prepares, cuts and orders an expression as
evaluating it does, and the printed postfix order is a program: its words are the very tokens that
evaluating the line would compute.
-/

namespace Calculator.CommandLine

namespace Options

section Definitions

variable (f : Elementary) (o : Options)

/-- The line of the output that lists the tokens of an expression, or the fault instead of it. -/
def dump (expression : Text) : Except Fault Text :=
  ((o.settings f).listing ((o.settings f).prepare expression).value).value.map
    fun (tokens, ordered) => Token.spaced tokens ++ '\t' :: Token.spaced ordered

/-- The records of an expression on the error output. -/
def notes (expression : Text) : List Text :=
  if o.verbose then (o.reply f expression).records.map debugLine else []

/-- What dumping an expression adds to the error output. -/
def dumpErrors (expression : Text) : List Text :=
  match o.dump f expression with
  | .ok _ => o.notes f expression
  | .error fault => o.notes f expression ++ [errorLine fault]

/-- What a line adds to the output when it is dumped. -/
def dumpOf? (line : Text) : Option Text := (expression? line).bind fun e => (o.dump f e).toOption

/-- What a line adds to the error output when it is dumped. -/
def dumpErrorsOf (line : Text) : List Text := (expression? line).elim [] (o.dumpErrors f)

end Definitions

variable {f : Elementary} {o : Options} {s : Surroundings}

theorem value_reply_of_dump (htask : o.task = .dump) (expression : Text) :
    (o.reply f expression).value =
      match o.dump f expression with
      | .ok t => .line t
      | .error fault => .fault fault := by
  rw [reply, htask]
  dsimp only
  rw [dumpExpression, Logged.value_map, Logged.value_bind, dump]
  cases ((o.settings f).listing ((o.settings f).prepare expression).value).value <;> rfl

theorem answer_dump (htask : o.task = .dump) (ending : Ending) (expressions : List Text) :
    o.answer f ending expressions =
      ⟨expressions.filterMap fun e => (o.dump f e).toOption,
        expressions.flatMap (o.dumpErrors f), ending⟩ := by
  induction expressions with
  | nil => rfl
  | cons e es ih =>
    rw [answer, ih]
    dsimp only
    rw [value_reply_of_dump htask, List.flatMap_cons, dumpErrors]
    cases hd : o.dump f e with
    | ok t => simp [hd, notes, Except.toOption]
    | error fault => simp [hd, notes, Except.toOption]

theorem session_dump (htask : o.task = .dump) :
    o.session f s =
      ⟨dumpHeading :: (o.lines s).1.filterMap (o.dumpOf? f),
        (o.lines s).1.flatMap (o.dumpErrorsOf f), (o.lines s).2⟩ := by
  have hflat (lines : List Text) :
      (lines.filterMap expression?).flatMap (o.dumpErrors f) =
        lines.flatMap (o.dumpErrorsOf f) := by
    induction lines with
    | nil => rfl
    | cons line lines ih =>
      rw [List.flatMap_cons, ← ih, dumpErrorsOf]
      cases he : expression? line <;> simp [he]
  rw [session]
  dsimp only
  rw [answer_dump htask, List.filterMap_filterMap, hflat, heading, htask]
  rfl

/-- The words of the printed postfix order are its tokens, and the faults are those of ordering. -/
theorem map_ofPostfixColumn_dump (f : Elementary) (o : Options) (expression : Text) :
    (o.dump f expression).map Token.ofPostfixColumn =
      ((o.settings f).ordered expression).value := by
  change _ = ((o.settings f).listing ((o.settings f).prepare expression).value).value.map Prod.snd
  rw [dump, Settings.listing]
  cases htokens : Token.scan (!(o.settings f).substitution)
      ((o.settings f).prepare expression).value with
  | error fault => rfl
  | ok tokens =>
    dsimp only
    cases hordered : Postfix.ofInfix? tokens with
    | none => rfl
    | some ordered =>
      have hcolumn := Postfix.ofPostfixColumn_spaced (Token.spelled_scan htokens) hordered
      exact congrArg Except.ok hcolumn

/-- What a dumped line adds to the output and to the error output: nothing if it is blank, its fault
if its expression cannot be put into postfix order, and otherwise a line whose postfix column is the
program of the expression and computes to its value or to its fault. -/
inductive DumpedBy (f : Elementary) (o : Options) (line : Text) : Option Text → List Text → Prop
  | blank (h : Text.trim isBlank line = []) : DumpedBy f o line none []
  | fault {e : Text} {fault : Fault} (he : expression? line = some e)
    (hfault : ((o.settings f).ordered e).value = .error fault) :
    DumpedBy f o line none (o.notes f e ++ [errorLine fault])
  | program {e t : Text} (he : expression? line = some e)
    (hordered : ((o.settings f).ordered e).value = .ok (Token.ofPostfixColumn t))
    (hrun : (o.settings f).arithmetic.run (Token.ofPostfixColumn t) =
      ((o.settings f).evaluate e).value) :
    DumpedBy f o line (some t) (o.notes f e)

theorem dumpedBy (f : Elementary) (o : Options) (line : Text) :
    o.DumpedBy f line (o.dumpOf? f line) (o.dumpErrorsOf f line) := by
  unfold dumpOf? dumpErrorsOf
  cases he : expression? line with
  | none => exact .blank (expression?_eq_none_iff.1 he)
  | some e =>
    have hordered := o.map_ofPostfixColumn_dump f e
    rw [Option.bind_some, Option.elim_some, dumpErrors]
    cases hd : o.dump f e with
    | error fault =>
      rw [hd] at hordered
      exact .fault he hordered.symm
    | ok t =>
      rw [hd] at hordered
      refine .program he hordered.symm ?_
      rw [Settings.value_evaluate, ← hordered]
      rfl

end Options

/-- With the dump switch every line is dumped, in order: a line that is not blank is answered by its
fault exactly if its expression cannot be put into postfix order, and otherwise by a line from whose
last column, by the spelling of the words alone, the tokens are recovered that evaluating the line
computes with. -/
theorem run_dumps_lines {f : Elementary} {words : List Text} {o : Options} {s : Surroundings}
    (h : Options.ofWords words = .ok o) (htask : o.task = .dump) :
    run f words s =
      ⟨dumpHeading :: (o.lines s).1.filterMap (o.dumpOf? f),
        (o.lines s).1.flatMap (o.dumpErrorsOf f), (o.lines s).2⟩ ∧
    ∀ line, o.DumpedBy f line (o.dumpOf? f line) (o.dumpErrorsOf f line) := by
  refine ⟨?_, o.dumpedBy f⟩
  rw [run, h]
  exact Options.session_dump htask

/-- A name and a digit that are not ASCII, a blank line and a fault. -/
theorem run_dumps_lines_three :
    run .native ["-D".toList, "-e".toList, " ٣×λ(-e) ".toList, " ".toList, "(2".toList]
        ⟨[], [], false, true⟩ =
      ⟨[dumpHeading, "٣ * λ ( - 2.718281828459045 )\t٣ 0 2.718281828459045 - λ *".toList],
        ["Error: Mismatched parentheses".toList], .exit 0⟩ := by
  have h : Options.ofWords ["-D".toList, "-e".toList, " ٣×λ(-e) ".toList, " ".toList,
      "(2".toList] = .ok ⟨false, false, false, .full,
        some [" ٣×λ(-e) ".toList, " ".toList, "(2".toList], none, .dump⟩ :=
    Outcome.eq_ok_of_toOption (by decide +kernel)
  rw [(run_dumps_lines (f := .native) (s := ⟨[], [], false, true⟩) h rfl).1]
  decide +kernel

end Calculator.CommandLine
