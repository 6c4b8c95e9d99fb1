import Calculator.Proofs.Expression.Decimal

/-!
# Leading reciprocals

A leading `1/` takes the value of everything after it, and an operator `1/` only that of the next
factor. When a single factor follows, both have the same outcome up to the sign of a zero: a zero
has no finite reciprocal, so the remainder whose sign was lost is read in place, and its sign with
it. When more than a factor follows, a remainder without a finite reciprocal is grouped differently.
-/

namespace Calculator

open Outcome

theorem Arithmetic.isFinite_reciprocal_of_zero {x : Float} (hx : (x == 0) = true) :
    (reciprocal x).isFinite = false := by
  rcases (Float.beq_iff_ne_nan_and_eq.1 hx).2.2 with rfl | ⟨rfl, -⟩ | ⟨rfl, -⟩ <;> rfl

theorem Outcome.agrees_plainZero (x : Float) : Agrees (.ok (Double.plainZero x)) (.ok x) := by
  cases hx : x == 0 with
  | false => exact .inl (by rw [Double.plainZero, if_neg (by simp [hx])])
  | true => exact .inr ⟨by rw [Double.plainZero, if_pos hx]; rfl, hx⟩

/-- A text behind a number of leading `1/`. -/
def Text.reciprocals (t : Text) : Nat → Text
  | 0 => t
  | k + 1 => '1' :: '/' :: reciprocals t k

namespace Settings

variable {s s' : Settings} {t rest : Text} {f : Derivation .factor} {v : Float}

theorem tokens_reciprocal_factor (h : s.tokens rest = .ok f.tokens) :
    s.tokens ('1' :: '/' :: rest) = .ok (Derivation.reciprocal f).tokens := by
  rw [tokens_reciprocal, h]
  rfl

/-- In place a reciprocal is that of the factor behind it. -/
theorem inline_reciprocal (h : s.tokens rest = .ok f.tokens) :
    s.inline ('1' :: '/' :: rest) = (s.inline rest).map Arithmetic.reciprocal := by
  rw [s.inline_of_tokens (tokens_reciprocal_factor h), s.inline_of_tokens h]
  rfl

theorem value_evaluate_of_isFinite (hd : s.deeper = some s')
    (hv : (s'.evaluate rest).value = .ok v) (hf : (Arithmetic.reciprocal v).isFinite = true) :
    (s.evaluate ('1' :: '/' :: rest)).value = .ok (Double.plainZero (Arithmetic.reciprocal v)) := by
  rw [value_evaluate_of_deeper hd, hv]
  dsimp only
  rw [if_pos hf, s.inline_plain hf]

theorem value_evaluate_of_not_isFinite (hd : s.deeper = some s')
    (hv : (s'.evaluate rest).value = .ok v) (hf : (Arithmetic.reciprocal v).isFinite = false) :
    (s.evaluate ('1' :: '/' :: rest)).value = s.inline ('1' :: '/' :: rest) := by
  rw [value_evaluate_of_deeper hd, hv]
  dsimp only
  rw [if_neg (by simp [hf])]

theorem value_evaluate_of_error (hd : s.deeper = some s') {fault : Fault}
    (hv : (s'.evaluate rest).value = .error fault) :
    (s.evaluate ('1' :: '/' :: rest)).value = s.inline ('1' :: '/' :: rest) := by
  rw [value_evaluate_of_deeper hd, hv]

/-- One more `1/` keeps the agreement, since a zero is not expanded. -/
theorem agrees_reciprocal (hd : s.deeper = some s') (h : s.tokens rest = .ok f.tokens)
    (hrest : Agrees (s'.evaluate rest).value (s.inline rest)) :
    Agrees (s.evaluate ('1' :: '/' :: rest)).value (s.inline ('1' :: '/' :: rest)) := by
  cases hv : (s'.evaluate rest).value with
  | error fault =>
    rw [value_evaluate_of_error hd hv]
    exact .refl _
  | ok v =>
    cases hf : (Arithmetic.reciprocal v).isFinite with
    | false =>
      rw [value_evaluate_of_not_isFinite hd hv hf]
      exact .refl _
    | true =>
      -- A sign was lost below only if the value is a zero, and then nothing is expanded here.
      have hzero : (v == 0) = false := by
        refine Bool.eq_false_iff.2 fun hz => ?_
        rw [Arithmetic.isFinite_reciprocal_of_zero hz] at hf
        cases hf
      rw [hv] at hrest
      rw [value_evaluate_of_isFinite hd hv hf, inline_reciprocal h, hrest.eq_ok hzero]
      exact agrees_plainZero _

/-- A factor is evaluated as it is read in place, up to the sign of a zero. -/
theorem agrees_inline (h : s.tokens t = .ok f.tokens) :
    Agrees (s.evaluate t).value (s.inline t) := by
  induction s, t using leading_induction generalizing f with
  | reciprocal s rest ih =>
    rw [tokens_reciprocal] at h
    obtain ⟨ts, hts, hf⟩ := exists_of_map_eq_ok h
    obtain ⟨operand, rfl, rfl⟩ := Derivation.exists_of_tokens_eq_cons hf.symm
    cases hd : s.deeper with
    | none =>
      rw [value_evaluate_of_deeper_eq_none hd]
      exact .refl _
    | some s' =>
      have hrest := ih s' (by rw [tokens_deeper hd]; exact hts)
      rw [inline_deeper hd] at hrest
      exact agrees_reciprocal hd hts hrest
  | other s t ht =>
    rw [value_evaluate_of_remainder?_eq_none s ht]
    exact .refl _

theorem exists_tokens_reciprocals (h : s.tokens t = .ok f.tokens) (k : Nat) :
    ∃ g : Derivation .factor, s.tokens (t.reciprocals k) = .ok g.tokens := by
  induction k with
  | zero => exact ⟨f, h⟩
  | succ k ih =>
    obtain ⟨g, hg⟩ := ih
    exact ⟨.reciprocal g, tokens_reciprocal_factor hg⟩

/-- Before a factor, leading `1/` may as well be read in place, however many of them there are and
however many may be expanded. -/
theorem agrees_inline_reciprocals (h : s.tokens t = .ok f.tokens) (k : Nat) :
    Agrees (s.evaluate (t.reciprocals k)).value (s.inline (t.reciprocals k)) := by
  obtain ⟨g, hg⟩ := exists_tokens_reciprocals h k
  exact agrees_inline hg

/-- The first reciprocal loses the sign of its zero and the second one restores it. -/
theorem agrees_inline_reciprocals_minus_infinity :
    Agrees ((standard .native).evaluate (Text.reciprocals "-1/0".toList 2)).value
      ((standard .native).inline (Text.reciprocals "-1/0".toList 2)) :=
  agrees_inline_reciprocals (f := .negation (.reciprocal (.single (.number ['0']))))
    (eq_ok_of_toOption (by decide +kernel)) 2

/-- A leading `1/` is the reciprocal of everything after it if that is finite, a zero without its
sign. Otherwise the text is read in place, which is the same reciprocal before a factor. -/
theorem value_evaluate_reciprocal_cases (hd : s.deeper = some s')
    (hv : (s'.evaluate rest).value = .ok v) :
    ((Arithmetic.reciprocal v).isFinite = true →
      (s.evaluate ('1' :: '/' :: rest)).value =
        .ok (Double.plainZero (Arithmetic.reciprocal v))) ∧
    ((Arithmetic.reciprocal v).isFinite = false →
      (s.evaluate ('1' :: '/' :: rest)).value = s.inline ('1' :: '/' :: rest)) ∧
    ((Arithmetic.reciprocal v).isFinite = false →
      remainder? rest = none ∨ (v == 0) = false →
      ∀ f : Derivation .factor, s.tokens rest = .ok f.tokens →
        (s.evaluate ('1' :: '/' :: rest)).value = .ok (Arithmetic.reciprocal v)) := by
  refine ⟨value_evaluate_of_isFinite hd hv, value_evaluate_of_not_isFinite hd hv, ?_⟩
  intro hf hrest f h
  have hinline : s.inline rest = .ok v := by
    rw [← inline_deeper hd]
    rcases hrest with hnone | hzero
    · rw [← value_evaluate_of_remainder?_eq_none s' hnone, hv]
    · have hagrees := agrees_inline (s := s') (by rw [tokens_deeper hd]; exact h)
      rw [hv] at hagrees
      exact hagrees.eq_ok hzero
  rw [value_evaluate_of_not_isFinite hd hv hf, inline_reciprocal h, hinline]
  rfl

theorem value_evaluate_reciprocal_four_and_zero :
    ((standard .native).evaluate ['1', '/', '4']).value =
        .ok (Double.plainZero (Arithmetic.reciprocal 4)) ∧
      ((standard .native).evaluate ['1', '/', '1', '-', '1']).value =
        (standard .native).inline ['1', '/', '1', '-', '1'] ∧
      ((standard .native).evaluate ['1', '/', '0']).value = .ok (Arithmetic.reciprocal 0) := by
  have hfour : ((standard .native).evaluate ['4']).value = .ok 4 :=
    eq_ok_of_toOption (by decide +kernel)
  have hdifference : ((standard .native).evaluate ['1', '-', '1']).value = .ok 0 :=
    eq_ok_of_toOption (by decide +kernel)
  have hzero : ((standard .native).evaluate ['0']).value = .ok 0 :=
    eq_ok_of_toOption (by decide +kernel)
  have hnumber : (standard .native).tokens ['0'] =
      .ok (Derivation.single (.number ['0'])).tokens := eq_ok_of_toOption (by decide +kernel)
  exact ⟨(value_evaluate_reciprocal_cases rfl hfour).1 (by decide +kernel),
    (value_evaluate_reciprocal_cases rfl hdifference).2.1 (by decide +kernel),
    (value_evaluate_reciprocal_cases rfl hzero).2.2 (by decide +kernel) (.inl rfl) _ hnumber⟩

/-- Before a difference only the first number is inverted, and the reciprocal of negative infinity
is read back as a positive zero. -/
theorem value_evaluate_reciprocal_ne :
    ((standard .native).evaluate ['1', '-', '1']).value = .ok 0 ∧
      ((standard .native).evaluate ['1', '/', '1', '-', '1']).value ≠
        .ok (Arithmetic.reciprocal 0) ∧
      ((standard .native).evaluate ['-', '1', '/', '0']).value = .ok (-Double.infinity) ∧
      ((standard .native).evaluate ['1', '/', '-', '1', '/', '0']).value ≠
        .ok (Arithmetic.reciprocal (-Double.infinity)) := by
  have hdifference : ((standard .native).evaluate ['1', '/', '1', '-', '1']).value = .ok 0 :=
    eq_ok_of_toOption (by decide +kernel)
  have hinfinity : ((standard .native).evaluate ['1', '/', '-', '1', '/', '0']).value = .ok 0 :=
    eq_ok_of_toOption (by decide +kernel)
  refine ⟨eq_ok_of_toOption (by decide +kernel), ?_, eq_ok_of_toOption (by decide +kernel), ?_⟩
  · rw [hdifference]
    exact fun h => absurd (Except.ok.inj h) (by decide +kernel)
  · rw [hinfinity]
    exact fun h => absurd (Except.ok.inj h) (by decide +kernel)

end Settings
end Calculator
