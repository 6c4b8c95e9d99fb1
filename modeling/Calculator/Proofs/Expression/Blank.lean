import Calculator.Proofs.Expression.Diagnosis
import Calculator.Proofs.Expression.Failure

/-!
# White space in expressions

White space is removed before a text is cut into tokens, so it counts for nothing where a text is
read in place. A leading `1/` is expanded before that, and only if it stands at the very start with
nothing between its signs. Removing white space can therefore uncover leading `1/` that would have
been read in place. Apart from these an expression is evaluated as its compact text is, and those
change neither the value of a factor, the sign of a zero aside, nor the fault of an expression.
-/

namespace Calculator

open Outcome

namespace Text

/-- How many `1/` lead a text. -/
def leading : Text → Nat
  | '1' :: '/' :: rest => leading rest + 1
  | _ => 0

theorem leading_of_remainder?_eq_none {t : Text} (h : remainder? t = none) : t.leading = 0 := by
  unfold leading
  split
  · cases h
  · rfl

theorem compact_compact (t : Text) : t.compact.compact = t.compact := by
  unfold compact
  rw [List.filter_filter]
  simp only [Bool.and_self]

end Text

namespace Settings

variable {s : Settings} {t : Text}

/-- At most `k` leading `1/` are expanded inside one another. -/
def limited (s : Settings) (k : Nat) : Settings :=
  { s with nesting := some (s.nesting.elim k (min k)) }

theorem inline_limited (s : Settings) (k : Nat) : (s.limited k).inline = s.inline := rfl

theorem deeper_limited_zero (s : Settings) : (s.limited 0).deeper = none := by
  obtain ⟨arithmetic, substitution, nesting⟩ := s
  cases nesting with
  | none => rfl
  | some n => simp only [limited, deeper, Option.elim_some, Nat.zero_min]

theorem deeper_limited_succ (s : Settings) (k : Nat) :
    (s.limited (k + 1)).deeper = s.deeper.map (limited · k) := by
  obtain ⟨arithmetic, substitution, nesting⟩ := s
  cases nesting with
  | none => rfl
  | some n =>
    cases n with
    | zero => rfl
    | succ n => simp only [limited, deeper, Option.elim_some, Nat.succ_min_succ, Option.map_some]

theorem tidy_compact (s : Settings) (t : Text) : s.tidy t.compact = s.tidy t := by
  change (if s.substitution then Text.substituteConstants t.compact.compact
    else t.compact.compact) = _
  rw [t.compact_compact]
  rfl

theorem tokens_compact (s : Settings) (t : Text) : s.tokens t.compact = s.tokens t := by
  rw [tokens, tidy_compact]
  rfl

theorem inline_compact (s : Settings) (t : Text) : s.inline t.compact = s.inline t := by
  rw [inline, tokens_compact]
  rfl

theorem value_evaluate_of_deeper_eq_none' (h : s.deeper = none) (t : Text) :
    (s.evaluate t).value = s.inline t := by
  cases ht : remainder? t with
  | none => exact value_evaluate_of_remainder?_eq_none s ht
  | some rest =>
    rw [eq_of_remainder?_eq_some ht]
    exact value_evaluate_of_deeper_eq_none h rest

/-- White space only keeps leading `1/` that it precedes or parts from being expanded. -/
theorem value_evaluate_eq_limited (s : Settings) (t : Text) :
    (s.evaluate t).value = ((s.limited t.leading).evaluate t.compact).value := by
  induction s, t using leading_induction with
  | other s t ht =>
    rw [Text.leading_of_remainder?_eq_none ht, value_evaluate_of_remainder?_eq_none s ht,
      value_evaluate_of_deeper_eq_none' s.deeper_limited_zero, inline_limited, inline_compact]
  | reciprocal s rest ih =>
    have hinline := s.inline_compact ('1' :: '/' :: rest)
    have hlimited := s.deeper_limited_succ rest.leading
    rw [Text.compact_reciprocal] at hinline ⊢
    rw [Text.leading]
    cases hd : s.deeper with
    | none =>
      rw [hd] at hlimited
      rw [value_evaluate_of_deeper_eq_none hd, value_evaluate_of_deeper_eq_none hlimited,
        inline_limited, hinline]
    | some s' =>
      rw [hd] at hlimited
      rw [value_evaluate_of_deeper hd, value_evaluate_of_deeper hlimited, ih s', inline_limited,
        hinline]

/-- A limit that the leading `1/` do not exceed is none. -/
theorem value_evaluate_limited {k : Nat} (h : t.leading ≤ k) :
    ((s.limited k).evaluate t).value = (s.evaluate t).value := by
  induction s, t using leading_induction generalizing k with
  | other s t ht =>
    rw [value_evaluate_of_remainder?_eq_none _ ht, value_evaluate_of_remainder?_eq_none _ ht,
      inline_limited]
  | reciprocal s rest ih =>
    cases k with
    | zero => cases h
    | succ k =>
      have hlimited := s.deeper_limited_succ k
      cases hd : s.deeper with
      | none =>
        rw [hd] at hlimited
        rw [value_evaluate_of_deeper_eq_none hd, value_evaluate_of_deeper_eq_none hlimited,
          inline_limited]
      | some s' =>
        rw [hd] at hlimited
        rw [value_evaluate_of_deeper hd, value_evaluate_of_deeper hlimited,
          ih s' (Nat.le_of_succ_le_succ h), inline_limited]

/-- Removing white space uncovers leading `1/` and changes nothing else. If it uncovers none, the
outcome stays, and if it does, a factor keeps its value and an expression its fault. -/
theorem value_evaluate_compact (s : Settings) (t : Text) :
    (s.evaluate t).value = ((s.limited t.leading).evaluate t.compact).value ∧
    (t.compact.leading = t.leading → (s.evaluate t).value = (s.evaluate t.compact).value) ∧
    (∀ f : Derivation .factor, s.tokens t = .ok f.tokens →
      Agrees (s.evaluate t).value (s.evaluate t.compact).value) ∧
    ∀ d : Derivation .expression, s.tokens t = .ok d.tokens →
      FailsAlike (s.evaluate t).value (s.evaluate t.compact).value := by
  have hlimited := s.value_evaluate_eq_limited t
  have hinline := s.inline_compact t
  refine ⟨hlimited, ?_, ?_, ?_⟩
  · intro hleading
    rw [hlimited, value_evaluate_limited (Nat.le_of_eq hleading)]
  · intro f hf
    have hcompact := agrees_inline (s := s) (t := t.compact) (by rw [tokens_compact]; exact hf)
    rw [hinline] at hcompact
    exact (agrees_inline hf).trans hcompact.symm
  · intro d hd
    have hcompact := failsAlike_inline (s := s) (t := t.compact) (by rw [tokens_compact]; exact hd)
    rw [hinline] at hcompact
    exact (failsAlike_inline hd).trans hcompact.symm

/-- A blank behind a leading `1/` counts for nothing; before or inside one it moves neither the
value of a factor nor the fault of an expression. -/
theorem value_evaluate_compact_quotients :
    ((standard .native).evaluate "1/ 4 + 4".toList).value =
        ((standard .native).evaluate (Text.compact "1/ 4 + 4".toList)).value ∧
      Agrees ((standard .native).evaluate "1 /4^2".toList).value
        ((standard .native).evaluate (Text.compact "1 /4^2".toList)).value ∧
      FailsAlike ((standard .native).evaluate " 1/4+foo(2)".toList).value
        ((standard .native).evaluate (Text.compact " 1/4+foo(2)".toList)).value := by
  have hpower : (standard .native).tokens "1 /4^2".toList =
      .ok (Derivation.reciprocal (.power (.number ['4']) (.single (.number ['2'])))).tokens :=
    eq_ok_of_toOption (by decide +kernel)
  have hsum : (standard .native).tokens " 1/4+foo(2)".toList =
      .ok (Derivation.sum (.term (.factor (.reciprocal (.single (.number ['4']))))) .add (.inl rfl)
        (.factor (.single (.call "foo".toList
          (.term (.factor (.single (.number ['2'])))))))).tokens :=
    eq_ok_of_toOption (by decide +kernel)
  exact ⟨((standard .native).value_evaluate_compact _).2.1 rfl,
    ((standard .native).value_evaluate_compact _).2.2.1 _ hpower,
    ((standard .native).value_evaluate_compact _).2.2.2 _ hsum⟩

/-- Without the blank the reciprocal is that of the whole sum. -/
theorem not_forall_value_evaluate_compact :
    ¬ ∀ (s : Settings) (t : Text), (s.evaluate t).value = (s.evaluate t.compact).value := by
  intro h
  have hequal := h (standard .native) " 1/4+4".toList
  have hplaced : ((standard .native).evaluate " 1/4+4".toList).value = .ok 4.25 :=
    eq_ok_of_toOption (by decide +kernel)
  have hwhole : ((standard .native).evaluate (Text.compact " 1/4+4".toList)).value = .ok 0.125 :=
    eq_ok_of_toOption (by decide +kernel)
  rw [hplaced, hwhole] at hequal
  exact absurd (Except.ok.inj hequal) (by decide +kernel)

end Settings
end Calculator
