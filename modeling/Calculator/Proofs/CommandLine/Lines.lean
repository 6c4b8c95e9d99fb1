import Calculator.CommandLine.Session
import Calculator.Proofs.CommandLine.Words

/-!
# Where lines come from

Lines given on the command line are answered as the same lines on the standard input are. Between
the two the words that set the options are read alike, an input that ends every line is taken apart
into its lines, and the blank rest behind the last of them is passed over.
-/

namespace Calculator

namespace Text

variable {p : Char → Bool} {c : Char} {line : Text}

theorem pieces_append_cons (hline : ∀ c ∈ line, p c = false) (hc : p c = true) (rest : Text) :
    pieces p (line ++ c :: rest) = line :: pieces p rest := by
  induction line with
  | nil => simp [pieces, hc]
  | cons d line ih =>
    have hd : p d = false := hline d List.mem_cons_self
    have hrest := ih fun c hc => hline c (List.mem_cons_of_mem d hc)
    simp [pieces, hd, hrest]

/-- An input that ends every line is its lines, and an empty rest. -/
theorem pieces_flatMap {lines : List Text} (hlines : ∀ line ∈ lines, ∀ c ∈ line, p c = false)
    (hc : p c = true) : pieces p (lines.flatMap (· ++ [c])) = lines ++ [[]] := by
  induction lines with
  | nil => rfl
  | cons line lines ih =>
    have hrest := ih fun line hline => hlines line (List.mem_cons_of_mem _ hline)
    rw [List.flatMap_cons, List.append_assoc, List.singleton_append,
      pieces_append_cons (hlines line List.mem_cons_self) hc, hrest, List.cons_append]

end Text

namespace CommandLine

namespace Options

variable {f : Elementary} {o : Options} {lines : List Text} {s s' : Surroundings}

/-- How lines are answered does not depend on where they come from. -/
theorem answer_expressions (f : Elementary) (o : Options) (given : Option (List Text))
    (ending : Ending) (expressions : List Text) :
    ({ o with expressions := given } : Options).answer f ending expressions =
      o.answer f ending expressions := by
  induction expressions with
  | nil => rfl
  | cons expression rest ih =>
    unfold answer
    rw [ih]
    rfl

theorem lines_of_input (hexpressions : o.expressions = none) (hprompt : o.prompt = none)
    (hterminal : s.terminal = false) (hinput : s.input = lines.flatMap (· ++ ['\n']))
    (hlines : ∀ line ∈ lines, '\n' ∉ line ∧ '\r' ∉ line) (htask : o.task ≠ .grammar) :
    o.lines s = (lines ++ [[]], .exit 0) := by
  have hprompts : o.prompts s = false := by
    rw [prompts, hprompt, hterminal]
    rfl
  have hbreaks : ∀ line ∈ lines, ∀ c ∈ line, (c = '\n' || c = '\r') = false := by
    intro line hline c hc
    have hfeed : c ≠ '\n' := fun h => (hlines line hline).1 (h ▸ hc)
    have hreturn : c ≠ '\r' := fun h => (hlines line hline).2 (h ▸ hc)
    simp [hfeed, hreturn]
  unfold Options.lines
  rw [hexpressions, hinput, Text.pieces_flatMap hbreaks (by decide), hprompts]
  cases ht : o.task with
  | grammar => exact absurd ht htask
  | evaluate | dump => rfl

theorem session_expressions (hexpressions : o.expressions = none) (hprompt : o.prompt = none)
    (hterminal : s'.terminal = false) (hinput : s'.input = lines.flatMap (· ++ ['\n']))
    (hlines : ∀ line ∈ lines, '\n' ∉ line ∧ '\r' ∉ line) :
    ({ o with expressions := some lines } : Options).session f s = o.session f s' := by
  have hblank : (lines ++ [[]]).filterMap expression? = lines.filterMap expression? := by
    rw [List.filterMap_append]
    exact List.append_nil _
  unfold session
  by_cases htask : o.task = .grammar
  · have hgiven : ({ o with expressions := some lines } : Options).lines s = ([], .exit 0) := by
      simp only [Options.lines, htask]
    have hinput : o.lines s' = ([], .exit 0) := by
      simp only [Options.lines, htask]
    rw [hgiven, hinput]
    rfl
  · have hgiven : ({ o with expressions := some lines } : Options).lines s =
        (lines, .exit 0) := by
      cases ht : o.task with
      | grammar => exact absurd ht htask
      | evaluate | dump => simp only [Options.lines]
    rw [hgiven, lines_of_input hexpressions hprompt hterminal hinput hlines htask]
    dsimp only
    rw [hblank, answer_expressions]
    rfl

end Options

/-- Lines behind the expression switch and lines of the standard input are answered alike. -/
theorem run_expressions {f : Elementary} {front lines : List Text} {o : Options}
    (h : Options.ofWords front = .ok o) (hexpressions : o.expressions = none)
    (hprompt : o.prompt = none) (hdashes : ∀ line ∈ lines, ¬ ['-', '-'] <+: line)
    (hbreaks : ∀ line ∈ lines, '\n' ∉ line ∧ '\r' ∉ line) (s s' : Surroundings)
    (hterminal : s'.terminal = false) (hinput : s'.input = lines.flatMap (· ++ ['\n'])) :
    run f (front ++ ['-', 'e'] :: lines) s = run f front s' := by
  unfold run
  rw [Options.ofWords_append_expression h hexpressions hprompt hdashes, h]
  exact Options.session_expressions hexpressions hprompt hterminal hinput hbreaks

/-- Lines that look like switches, and a blank one. -/
theorem run_expressions_dashes :
    run .native ["-rk".toList, "-2".toList, "-s".toList, "-e".toList, "-5+3".toList, " ".toList,
        "-k".toList, "-e2".toList] ⟨[], [], false, true⟩ =
      run .native ["-rk".toList, "-2".toList, "-s".toList]
        ⟨"-5+3\n \n-k\n-e2\n".toList, [], false, false⟩ := by
  have h : Options.ofWords ["-rk".toList, "-2".toList, "-s".toList] =
      .ok ⟨false, true, true, .places (-2), none, none, .evaluate⟩ :=
    Outcome.eq_ok_of_toOption (by decide +kernel)
  have hdashes : ∀ line ∈ ["-5+3".toList, " ".toList, "-k".toList, "-e2".toList],
      ¬ ['-', '-'] <+: line := by decide
  exact run_expressions h rfl rfl hdashes (by decide) _ _ rfl rfl

end CommandLine
end Calculator

