import Calculator.CommandLine.Session
import Calculator.Proofs.Expression.Message
import Calculator.Proofs.Number.Rounding

/-!
# Answers to lines

Lines are answered one after the other: a blank line by nothing, and any other by one line, its
value on the output or its fault on the error output. This goes on to the last line unless a value
cannot be rounded as asked, which ends the session there, with all later lines unanswered. Without a
precision, or with one that gives up at most 292 digits before the point or more than 308, every
value can be rounded.
-/

namespace Calculator.CommandLine

namespace Options

/-- Expressions are evaluated, without notes on how, and results have a stated precision or none. -/
structure Evaluates (o : Options) : Prop where
  task : o.task = .evaluate
  quiet : o.verbose = false
  stated : o.precision ≠ .unstated

section Definitions

variable (f : Elementary) (o : Options)

/-- A value rounded as asked, if the rounded value does not exceed the largest double. -/
def rounded? (x : Float) : Option Float :=
  match o.precision with
  | .places n => Double.round? n x
  | _ => some x

/-- The line of the output that answers an expression. -/
def valueLine? (expression : Text) : Option Text :=
  match ((o.settings f).evaluate expression).value with
  | .ok x => (o.rounded? x).map Double.display
  | .error _ => none

/-- The line of the error output that answers an expression. -/
def faultLine? (expression : Text) : Option Text :=
  match ((o.settings f).evaluate expression).value with
  | .ok _ => none
  | .error fault => some (errorLine fault)

/-- The value of the expression can be rounded as asked, if it has one. -/
def Answerable (expression : Text) : Prop :=
  ∀ x, ((o.settings f).evaluate expression).value = .ok x → o.rounded? x ≠ none

end Definitions

variable {f : Elementary} {o : Options} {expression : Text} {expressions : List Text}
variable {ending : Ending}

theorem present_eq (hstated : o.precision ≠ .unstated) (x : Float) :
    o.present x =
      (o.rounded? x).elim (.unrounded .overflow) fun y => .line (Double.display y) := by
  unfold present rounded?
  cases hprecision : o.precision with
  | full => rfl
  | places n => rfl
  | unstated => exact absurd hprecision hstated

theorem value_reply_of_ok (ho : o.Evaluates) {x : Float}
    (hv : ((o.settings f).evaluate expression).value = .ok x) :
    (o.reply f expression).value =
      (o.rounded? x).elim (.unrounded .overflow) fun y => .line (Double.display y) := by
  rw [reply, ho.task, ← present_eq ho.stated]
  dsimp only
  rw [evaluateExpression, Logged.value_map, hv]

theorem value_reply_of_error (ho : o.Evaluates) {fault : Fault}
    (hv : ((o.settings f).evaluate expression).value = .error fault) :
    (o.reply f expression).value = .fault fault := by
  rw [reply, ho.task]
  dsimp only
  rw [evaluateExpression, Logged.value_map, hv]

/-- An answerable expression adds its line to what the later ones lead to. -/
theorem answer_cons (ho : o.Evaluates) (h : o.Answerable f expression) (rest : List Text) :
    o.answer f ending (expression :: rest) =
      ⟨(o.valueLine? f expression).toList ++ (o.answer f ending rest).output,
        (o.faultLine? f expression).toList ++ (o.answer f ending rest).errors,
        (o.answer f ending rest).ending⟩ := by
  unfold valueLine? faultLine?
  rw [answer]
  cases hv : ((o.settings f).evaluate expression).value with
  | error fault => simp [value_reply_of_error ho hv, ho.quiet]
  | ok x =>
    obtain ⟨y, hy⟩ := Option.ne_none_iff_exists'.1 (h x hv)
    simp [value_reply_of_ok ho hv, ho.quiet, hy]

/-- A value that cannot be rounded ends the session, whatever the later expressions are. -/
theorem answer_cons_of_not_answerable (ho : o.Evaluates) (h : ¬ o.Answerable f expression)
    (rest : List Text) :
    o.answer f ending (expression :: rest) = ⟨[], [], .unrounded .overflow⟩ := by
  unfold Answerable at h
  push Not at h
  obtain ⟨x, hv, hx⟩ := h
  rw [answer]
  simp [value_reply_of_ok ho hv, ho.quiet, hx]

/-- Answerable expressions all add their lines, in order. -/
theorem answer_append (ho : o.Evaluates) (h : ∀ e ∈ expressions, o.Answerable f e)
    (rest : List Text) :
    o.answer f ending (expressions ++ rest) =
      ⟨expressions.filterMap (o.valueLine? f) ++ (o.answer f ending rest).output,
        expressions.filterMap (o.faultLine? f) ++ (o.answer f ending rest).errors,
        (o.answer f ending rest).ending⟩ := by
  induction expressions with
  | nil => rfl
  | cons e es ih =>
    obtain ⟨he, hes⟩ := List.forall_mem_cons.1 h
    have hlines (g : Text → Option Text) (later : List Text) :
        (e :: es).filterMap g ++ later = (g e).toList ++ (es.filterMap g ++ later) := by
      rw [← List.append_assoc]
      cases hg : g e <;> simp [hg]
    rw [List.cons_append, answer_cons ho he, ih hes, hlines, hlines]

section Lines

variable (f : Elementary) (o : Options) (line : Text)

/-- What a line adds to the output. -/
def outputOf? : Option Text := (expression? line).bind (o.valueLine? f)

/-- What a line adds to the error output. -/
def errorOf? : Option Text := (expression? line).bind (o.faultLine? f)

/-- The line is blank or its expression is answerable. -/
def AnswersLine : Prop := ∀ e ∈ expression? line, o.Answerable f e

end Lines

variable {line : Text} {lines : List Text} {s : Surroundings}

theorem expression?_eq_none_iff : expression? line = none ↔ Text.trim isBlank line = [] := by
  unfold expression?
  split
  · next h => simp [h]
  · next h => simpa using h

theorem forall_answerable (h : ∀ line ∈ lines, o.AnswersLine f line) :
    ∀ e ∈ lines.filterMap expression?, o.Answerable f e := by
  intro e he
  obtain ⟨line, hline, hexpression⟩ := List.mem_filterMap.1 he
  exact h line hline e hexpression

theorem answersLine_of_precision
    (h : ∀ n, o.precision = .places n → n < -308 ∨ -293 < n) (line : Text) :
    o.AnswersLine f line := by
  intro e _ x _
  unfold rounded?
  cases hprecision : o.precision with
  | places n => exact Double.round?_ne_none (h n hprecision) x
  | full | unstated => exact Option.some_ne_none x

/-- What a line adds to the output and to the error output: nothing if it is blank, and otherwise
one line, for the value of its expression or for the fault. -/
inductive AnsweredBy (f : Elementary) (o : Options) (line : Text) : Option Text → Option Text → Prop
  | blank (h : Text.trim isBlank line = []) : AnsweredBy f o line none none
  | value {e : Text} {x y : Float} (he : expression? line = some e)
    (hx : ((o.settings f).evaluate e).value = .ok x) (hy : o.rounded? x = some y) :
    AnsweredBy f o line (some (Double.display y)) none
  | fault {e : Text} {fault : Fault} (he : expression? line = some e)
    (hfault : ((o.settings f).evaluate e).value = .error fault) :
    AnsweredBy f o line none (some (errorLine fault))

theorem answeredBy (h : o.AnswersLine f line) :
    o.AnsweredBy f line (o.outputOf? f line) (o.errorOf? f line) := by
  unfold outputOf? errorOf?
  cases he : expression? line with
  | none => exact .blank (expression?_eq_none_iff.1 he)
  | some e =>
    rw [Option.bind_some, Option.bind_some, valueLine?, faultLine?]
    cases hv : ((o.settings f).evaluate e).value with
    | error fault => exact .fault he hv
    | ok x =>
      obtain ⟨y, hy⟩ := Option.ne_none_iff_exists'.1 (h e he x hv)
      dsimp only
      rw [hy]
      exact .value he hv hy

theorem prints_valueLine? {t : Text} (h : t ∈ o.valueLine? f expression) : t.Prints := by
  unfold valueLine? at h
  split at h
  · obtain ⟨y, -, rfl⟩ := Option.map_eq_some_iff.1 h
    exact Double.prints_display y
  · cases h

theorem prints_faultLine? {t : Text} (h : t ∈ o.faultLine? f expression) : t.Prints := by
  unfold faultLine? at h
  split at h
  · cases h
  · next fault hfault =>
    obtain rfl := Option.some.inj h
    exact Text.prints_append.2
      ⟨by decide +kernel, Settings.prints_message hfault⟩

theorem prints_answer {t : Text}
    (h : t ∈ o.outputOf? f line ∨ t ∈ o.errorOf? f line) : t.Prints := by
  rcases h with h | h
  · obtain ⟨e, -, ht⟩ := Option.bind_eq_some_iff.1 h
    exact prints_valueLine? ht
  · obtain ⟨e, -, ht⟩ := Option.bind_eq_some_iff.1 h
    exact prints_faultLine? ht

theorem session_eq (ho : o.Evaluates) (hlines : o.lines s = (lines, ending)) :
    o.session f s = o.answer f ending (lines.filterMap expression?) := by
  rw [session, hlines, heading, ho.task]
  rfl

theorem session_of_answersLine (ho : o.Evaluates) (hlines : o.lines s = (lines, ending))
    (h : ∀ line ∈ lines, o.AnswersLine f line) :
    o.session f s = ⟨lines.filterMap (o.outputOf? f), lines.filterMap (o.errorOf? f), ending⟩ := by
  have hall : o.answer f ending _ = _ := answer_append ho (forall_answerable h) []
  rw [List.append_nil, List.filterMap_filterMap, List.filterMap_filterMap] at hall
  rw [session_eq ho hlines, hall, answer, List.append_nil, List.append_nil]
  rfl

theorem session_of_not_answersLine {before after : List Text} (ho : o.Evaluates)
    (hlines : o.lines s = (before ++ line :: after, ending))
    (hbefore : ∀ line ∈ before, o.AnswersLine f line) (h : ¬ o.AnswersLine f line) :
    o.session f s = ⟨before.filterMap (o.outputOf? f), before.filterMap (o.errorOf? f),
      .unrounded .overflow⟩ := by
  unfold AnswersLine at h
  push Not at h
  obtain ⟨e, he, hanswerable⟩ := h
  rw [session_eq ho hlines, List.filterMap_append, List.filterMap_cons_some he,
    answer_append ho (forall_answerable hbefore), answer_cons_of_not_answerable ho hanswerable,
    List.filterMap_filterMap, List.filterMap_filterMap, List.append_nil, List.append_nil]
  rfl

end Options

/-- Lines are answered in order up to the first one whose value cannot be rounded as asked; without
such a line all of them are, and the run ends normally. A line that is answered is answered by
printable text on one of the outputs, unless it is blank. Only precisions that give up 293 to 308
digits before the point can leave a line without an answer. -/
theorem run_answers_lines {f : Elementary} {words lines : List Text} {o : Options}
    {s : Surroundings} (h : Options.ofWords words = .ok o) (ho : o.Evaluates)
    (hlines : o.lines s = (lines, .exit 0)) :
    (∀ line, o.AnswersLine f line →
      o.AnsweredBy f line (o.outputOf? f line) (o.errorOf? f line) ∧
        ∀ t, t ∈ o.outputOf? f line ∨ t ∈ o.errorOf? f line → t.Prints) ∧
    ((∀ line ∈ lines, o.AnswersLine f line) →
      run f words s =
        ⟨lines.filterMap (o.outputOf? f), lines.filterMap (o.errorOf? f), .exit 0⟩) ∧
    (∀ before line after, lines = before ++ line :: after →
      (∀ line ∈ before, o.AnswersLine f line) → ¬ o.AnswersLine f line →
      run f words s =
        ⟨before.filterMap (o.outputOf? f), before.filterMap (o.errorOf? f),
          .unrounded .overflow⟩) ∧
    ((∀ n, o.precision = .places n → n < -308 ∨ -293 < n) → ∀ line, o.AnswersLine f line) := by
  have hrun : run f words s = o.session f s := by
    rw [run, h]
  refine ⟨fun line hline => ?_, fun hall => ?_, fun before line after hsplit hbefore hline => ?_,
    fun hprecision line => ?_⟩
  · exact ⟨Options.answeredBy hline, fun t ht => Options.prints_answer ht⟩
  · rw [hrun, Options.session_of_answersLine ho hlines hall]
  · subst hsplit
    rw [hrun, Options.session_of_not_answersLine ho hlines hbefore hline]
  · exact Options.answersLine_of_precision hprecision line

/-- A value, a blank line and a fault. -/
theorem run_answers_lines_three :
    run .native ["-k".toList, "2".toList, "-e".toList, "2/3".toList, " ".toList, "(2".toList]
        ⟨[], [], false, true⟩ =
      ⟨["0.67".toList], ["Error: Mismatched parentheses".toList], .exit 0⟩ := by
  have h : Options.ofWords ["-k".toList, "2".toList, "-e".toList, "2/3".toList, " ".toList,
      "(2".toList] = .ok ⟨false, false, false, .places 2,
        some ["2/3".toList, " ".toList, "(2".toList], none, .evaluate⟩ :=
    Outcome.eq_ok_of_toOption (by decide +kernel)
  have hanswers := run_answers_lines (f := .native) (s := ⟨[], [], false, true⟩) h
    ⟨rfl, rfl, nofun⟩ rfl
  have hall := hanswers.2.2.2 (by
    rintro n hn
    cases hn
    exact .inr (by decide))
  rw [hanswers.2.1 fun line _ => hall line]
  decide +kernel

/-- A value next to the largest double and a precision that gives up 308 digits: neither this line
nor the one behind it is answered. -/
theorem not_forall_run_answers :
    ¬ ∀ (words : List Text) (o : Options) (s : Surroundings), Options.ofWords words = .ok o →
      o.Evaluates → (o.lines s).2 = .exit 0 →
      (run .native words s).ending = .exit 0 ∧
        (run .native words s).output.length + (run .native words s).errors.length =
          ((o.lines s).1.filterMap expression?).length := by
  intro hall
  have h : Options.ofWords ["-k".toList, "-308".toList, "-e".toList,
      "17".toList ++ List.replicate 307 '0', "1".toList] = .ok ⟨false, false, false, .places (-308),
        some ["17".toList ++ List.replicate 307 '0', "1".toList], none, .evaluate⟩ :=
    Outcome.eq_ok_of_toOption (by decide +kernel)
  have hending := (hall _ _ ⟨[], [], false, false⟩ h ⟨rfl, rfl, nofun⟩ rfl).1
  rw [run, h] at hending
  revert hending
  decide +kernel

end Calculator.CommandLine
