import Calculator.Expression.Evaluation
import Calculator.Proofs.Token.Stretch

/-!
# Reading reciprocals in place

`Settings.inline` is the outcome of a text whose leading `1/` are not expanded: the text is tidied,
cut into tokens, put into postfix order and computed. Evaluating a text is reading another one in
place: the text itself if no `1/` leads it or the remainder has no finite reciprocal, and otherwise
the decimal of that reciprocal.
-/

namespace Calculator

/-- The outcome of tokens in infix order. -/
def Arithmetic.runInfix (a : Arithmetic) (ts : List Token) : Except Fault Float :=
  match Postfix.ofInfix? ts with
  | none => .error .mismatchedParentheses
  | some ordered => a.run ordered

/-- The text without white space. -/
def Text.compact (t : Text) : Text := t.filter fun c => !isSpace c

namespace Settings

variable (s : Settings)

/-- The tokens of a text as it stands. -/
def tokens (text : Text) : Except Fault (List Token) :=
  Token.scan (!s.substitution) (s.tidy text)

/-- The outcome of a text in which every `1/` is an operator of its own. -/
def inline (text : Text) : Except Fault Float := (s.tokens text).bind s.arithmetic.runInfix

theorem tidy_append_cons {c : Char} (hc : isSpace c = false ∧ c ≠ 'p' ∧ c ≠ 'i' ∧ c ≠ 'e')
    (before after : Text) :
    s.tidy (before ++ c :: after) = s.tidy before ++ c :: s.tidy after := by
  obtain ⟨hspace, hp, hi, he⟩ := hc
  unfold tidy
  rw [List.filter_append, List.filter_cons, hspace]
  cases s.substitution with
  | false => rfl
  | true => exact Text.substituteConstants_append_cons hp hi he _ _

theorem bind_value_order (prepared : Text) :
    (s.order prepared).value.bind s.arithmetic.run =
      (Token.scan (!s.substitution) prepared).bind s.arithmetic.runInfix := by
  unfold order listing
  cases Token.scan (!s.substitution) prepared with
  | error fault => rfl
  | ok ts =>
    dsimp only [Except.bind, Arithmetic.runInfix]
    cases Postfix.ofInfix? ts <;> rfl

theorem value_compute (text prepared : Text) (records : List Record) :
    (s.compute text ⟨records, s.tidy prepared⟩).value = s.inline prepared :=
  s.bind_value_order (s.tidy prepared)

theorem tokens_reciprocal (rest : Text) :
    s.tokens ('1' :: '/' :: rest) = (s.tokens rest).map (Token.reciprocal :: ·) := by
  have htidy : s.tidy ('1' :: '/' :: rest) = '1' :: '/' :: s.tidy rest := by
    have hnil : s.tidy [] = [] := by
      unfold tidy
      cases s.substitution <;> rfl
    have hone := s.tidy_append_cons (c := '1') (by decide) [] ('/' :: rest)
    have hslash := s.tidy_append_cons (c := '/') (by decide) [] rest
    rw [hnil, List.nil_append, List.nil_append] at hone hslash
    rw [hone, hslash]
  rw [tokens, htidy]
  exact Token.scan_reciprocal _ _

theorem value_evaluate_of_remainder?_eq_none {text : Text} (h : remainder? text = none) :
    (s.evaluate text).value = s.inline text := by
  rw [evaluate_eq, prepare, prepareWith, h]
  exact s.value_compute text text []

theorem value_evaluate_reciprocal (rest : Text) :
    (s.evaluate ('1' :: '/' :: rest)).value =
      s.inline (reciprocalText ('1' :: '/' :: rest) (s.evaluateRemainder rest)).value := by
  rw [evaluate_eq, prepare, prepareWith]
  exact s.value_compute _ _ _

theorem value_evaluate_of_deeper_eq_none {s : Settings} (h : s.deeper = none) (rest : Text) :
    (s.evaluate ('1' :: '/' :: rest)).value = s.inline ('1' :: '/' :: rest) := by
  rw [value_evaluate_reciprocal, evaluateRemainder, h]
  rfl

/-- A leading `1/` is the decimal of a finite reciprocal, and otherwise it is read in place. -/
theorem value_evaluate_of_deeper {s s' : Settings} (h : s.deeper = some s') (rest : Text) :
    (s.evaluate ('1' :: '/' :: rest)).value =
      match (s'.evaluate rest).value with
      | .error _ => s.inline ('1' :: '/' :: rest)
      | .ok v =>
        if (Arithmetic.reciprocal v).isFinite then s.inline (Double.plain (Arithmetic.reciprocal v))
        else s.inline ('1' :: '/' :: rest) := by
  rw [value_evaluate_reciprocal, evaluateRemainder, h, Option.map_some]
  obtain ⟨records, outcome⟩ := s'.evaluate rest
  cases outcome with
  | error fault => rfl
  | ok v =>
    dsimp only [reciprocalText]
    split <;> rfl

theorem eq_of_remainder?_eq_some {text rest : Text} (h : remainder? text = some rest) :
    text = '1' :: '/' :: rest := by
  unfold remainder? at h
  split at h
  · rw [Option.some.inj h]
  · cases h

/-- A remainder is shorter than its text. -/
@[elab_as_elim]
theorem leading_induction {motive : Settings → Text → Prop}
    (reciprocal : ∀ s rest, (∀ s', motive s' rest) → motive s ('1' :: '/' :: rest))
    (other : ∀ s text, remainder? text = none → motive s text) (s : Settings) (text : Text) :
    motive s text := by
  induction hn : text.length using Nat.strongRecOn generalizing s text with
  | ind n ih =>
    cases hr : remainder? text with
    | none => exact other s text hr
    | some rest =>
      obtain rfl := eq_of_remainder?_eq_some hr
      refine reciprocal s rest fun s' => ih rest.length ?_ s' rest rfl
      rw [← hn, List.length_cons, List.length_cons]
      omega

theorem exists_eq_of_deeper {s s' : Settings} (h : s.deeper = some s') :
    ∃ nesting, s' = { s with nesting := nesting } := by
  unfold deeper at h
  split at h
  · next hn => exact ⟨none, by rw [← Option.some.inj h, ← hn]⟩
  · cases h
  · next n hn => exact ⟨some n, (Option.some.inj h).symm⟩

theorem tokens_deeper {s s' : Settings} (h : s.deeper = some s') : s'.tokens = s.tokens := by
  obtain ⟨nesting, rfl⟩ := exists_eq_of_deeper h
  rfl

theorem inline_deeper {s s' : Settings} (h : s.deeper = some s') : s'.inline = s.inline := by
  obtain ⟨nesting, rfl⟩ := exists_eq_of_deeper h
  rfl

end Settings
end Calculator
