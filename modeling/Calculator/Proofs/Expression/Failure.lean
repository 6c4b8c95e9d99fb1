import Calculator.Proofs.Expression.Reciprocal
import Calculator.Proofs.Grammar.Joined

/-!
# Where expressions fail

Operators, negations and reciprocals have a value for all operands, so the first atom that fails
settles the fault of a tree, whatever the values before it are. `Derivation.inverted` has one more
reciprocal before its first factor. That changes values on the way, but none inside a call or a
group, and so no fault. Hence an expression fails as it does read in place, and a leading `1/`
before it, expanded or not, neither hides the fault nor adds one.
-/

namespace Calculator

open Outcome

namespace Derivation

/-- The tree with a reciprocal before its first factor. -/
def inverted : {l : Level} → Derivation l → Derivation l
  | .atom, a => a
  | .factor, f => .reciprocal f
  | .term, factor f => .factor (.reciprocal f)
  | .term, product left op hop right => .product left.inverted op hop right
  | .expression, term t => .term t.inverted
  | .expression, sum left op hop right => .sum left.inverted op hop right

variable {l : Level} {ts : List Token}

@[simp] theorem inverted_factor (f : Derivation .factor) : f.inverted = .reciprocal f := by
  cases f <;> rfl

theorem tokens_inverted (hl : l ≠ .atom) (d : Derivation l) :
    d.inverted.tokens = Token.reciprocal :: d.tokens := by
  induction d with
  | number | call | group => exact absurd rfl hl
  | single | power | negation | reciprocal | factor => rfl
  | product left op hop right ih _ | sum left op hop right ih _ =>
    rw [inverted, tokens, ih Level.noConfusion, tokens, List.cons_append]
  | term t ih => exact ih Level.noConfusion

/-- A tree that begins with the sign of reciprocals has one before its first factor. -/
theorem exists_eq_inverted {d : Derivation l} (hl : l ≠ .atom)
    (h : d.tokens = Token.reciprocal :: ts) :
    ∃ e : Derivation l, d = e.inverted ∧ e.tokens = ts := by
  have hfactor {f : Derivation .factor} {ts : List Token}
      (hf : f.tokens = Token.reciprocal :: ts) :
      ∃ e : Derivation .factor, f = e.inverted ∧ e.tokens = ts := by
    obtain ⟨operand, rfl, hts⟩ := exists_of_tokens_eq_cons hf
    exact ⟨operand, operand.inverted_factor.symm, hts⟩
  -- The sign stands at the front of the left operand, since that has at least one token.
  have hleft {m : Level} {left : Derivation m} {us ts : List Token}
      (hts : left.tokens ++ us = Token.reciprocal :: ts) :
      ∃ more, left.tokens = Token.reciprocal :: more ∧ ts = more ++ us := by
    rcases List.append_eq_cons_iff.1 hts with ⟨hnil, -⟩ | hcons
    · exact absurd hnil left.tokens_ne_nil
    · exact hcons
  induction d generalizing ts with
  | number | call | group => exact absurd rfl hl
  | single | power | negation | reciprocal => exact hfactor h
  | factor f _ =>
    obtain ⟨operand, rfl, hts⟩ := exists_of_tokens_eq_cons h
    exact ⟨.factor operand, rfl, hts⟩
  | product left op hop right ih _ =>
    obtain ⟨more, hmore, rfl⟩ := hleft h
    obtain ⟨e, rfl, rfl⟩ := ih Level.noConfusion hmore
    exact ⟨.product e op hop right, rfl, rfl⟩
  | term t ih =>
    obtain ⟨e, rfl, he⟩ := ih Level.noConfusion h
    exact ⟨.term e, rfl, he⟩
  | sum left op hop right ih _ =>
    obtain ⟨more, hmore, rfl⟩ := hleft h
    obtain ⟨e, rfl, rfl⟩ := ih Level.noConfusion hmore
    exact ⟨.sum e op hop right, rfl, rfl⟩

/-- A reciprocal before the first factor changes no fault. -/
theorem failsAlike_value_inverted (a : Arithmetic) (d : Derivation l) :
    FailsAlike (d.inverted.value a) (d.value a) := by
  induction d with
  | number | call | group => exact .refl _
  | single | power | negation | reciprocal | factor => exact failsAlike_map _ _
  | product left op hop right ih _ | sum left op hop right ih _ =>
    exact ih.bind_map (right.value a) (a.binary op)
  | term t ih => exact ih

end Derivation

namespace Settings

variable {s s' : Settings} {t rest : Text} {d : Derivation .expression}

theorem tokens_reciprocal_expression (h : s.tokens rest = .ok d.tokens) :
    s.tokens ('1' :: '/' :: rest) = .ok d.inverted.tokens := by
  rw [tokens_reciprocal, h, d.tokens_inverted Level.noConfusion]
  rfl

theorem failsAlike_inline_reciprocal (h : s.tokens rest = .ok d.tokens) :
    FailsAlike (s.inline ('1' :: '/' :: rest)) (s.inline rest) := by
  rw [s.inline_of_tokens (tokens_reciprocal_expression h), s.inline_of_tokens h]
  exact d.failsAlike_value_inverted s.arithmetic

/-- An expression fails as it does when its leading `1/` are read in place. -/
theorem failsAlike_inline (h : s.tokens t = .ok d.tokens) :
    FailsAlike (s.evaluate t).value (s.inline t) := by
  induction s, t using leading_induction generalizing d with
  | other s t ht =>
    rw [value_evaluate_of_remainder?_eq_none s ht]
    exact .refl _
  | reciprocal s rest ih =>
    rw [tokens_reciprocal] at h
    obtain ⟨ts, hts, hd⟩ := exists_of_map_eq_ok h
    obtain ⟨e, rfl, rfl⟩ := Derivation.exists_eq_inverted Level.noConfusion hd.symm
    cases hdeeper : s.deeper with
    | none =>
      rw [value_evaluate_of_deeper_eq_none hdeeper]
      exact .refl _
    | some s' =>
      cases hv : (s'.evaluate rest).value with
      | error fault =>
        rw [value_evaluate_of_error hdeeper hv]
        exact .refl _
      | ok v =>
        cases hf : (Arithmetic.reciprocal v).isFinite with
        | false =>
          rw [value_evaluate_of_not_isFinite hdeeper hv hf]
          exact .refl _
        | true =>
          -- The remainder has a value, so in place neither it nor the whole text fails.
          have hrest := ih s' (by rw [tokens_deeper hdeeper]; exact hts)
          rw [hv, inline_deeper hdeeper] at hrest
          rw [value_evaluate_of_isFinite hdeeper hv hf]
          exact (failsAlike_ok _ v).trans (hrest.trans (failsAlike_inline_reciprocal hts).symm)

/-- An expression and its reciprocal have the same fault, if they have any. -/
theorem value_evaluate_reciprocal_eq_error_iff (h : s.tokens t = .ok d.tokens) (fault : Fault) :
    (s.evaluate ('1' :: '/' :: t)).value = .error fault ↔ (s.evaluate t).value = .error fault := by
  have hwhole := failsAlike_inline (tokens_reciprocal_expression h)
  exact (hwhole.trans ((failsAlike_inline_reciprocal h).trans (failsAlike_inline h).symm)) fault

/-- The factorial of a half is the fault of a difference and of its reciprocal. -/
theorem value_evaluate_reciprocal_eq_error_iff_factorial :
    ((standard .native).evaluate "1/3 - fact(1/2)".toList).value =
        .error (.factorialDomain 0.5) ∧
      ((standard .native).evaluate "1/1/3 - fact(1/2)".toList).value =
        .error (.factorialDomain 0.5) := by
  have htokens : (standard .native).tokens "1/3 - fact(1/2)".toList =
      .ok (Derivation.sum (.term (.factor (.reciprocal (.single (.number ['3']))))) .sub (.inr rfl)
        (.factor (.single (.call "fact".toList
          (.term (.factor (.reciprocal (.single (.number ['2']))))))))).tokens :=
    eq_ok_of_toOption (by decide +kernel)
  have hfault : ((standard .native).evaluate "1/3 - fact(1/2)".toList).value =
      .error (.factorialDomain 0.5) := by decide +kernel
  exact ⟨hfault, (value_evaluate_reciprocal_eq_error_iff htokens (.factorialDomain 0.5)).2 hfault⟩

end Settings
end Calculator
