import Calculator.Proofs.Expression.Inline
import Calculator.Proofs.Postfix.Group
import Calculator.Proofs.Postfix.Operand

/-!
# Groups count by their value

A group is cut into tokens, ordered and computed in one piece, so an expression in parentheses may
be exchanged for another one with the same value. That holds in every context, well formed or not,
and below any number of leading `1/`, since each of them either expands to the same decimal or is
read in place.
-/

namespace Calculator

open Outcome

/-- A group of tokens counts by its value, in every context of tokens. -/
theorem Arithmetic.runInfix_group_congr {a : Arithmetic} {ts us : List Token} {v : Float}
    (ht : a.runInfix ts = .ok v) (hu : a.runInfix us = .ok v) (pre post : List Token) :
    a.runInfix (pre ++ Token.opening :: (ts ++ Token.closing :: post)) =
      a.runInfix (pre ++ Token.opening :: (us ++ Token.closing :: post)) := by
  unfold runInfix at ht hu
  cases hts : Postfix.ofInfix? ts with
  | none => simp [hts] at ht
  | some xs =>
    cases hus : Postfix.ofInfix? us with
    | none => simp [hus] at hu
    | some ys =>
      simp only [hts, hus] at ht hu
      unfold runInfix Postfix.ofInfix?
      cases hpre : Postfix.read [] none pre with
      | none => simp only [Postfix.convertFrom_append_eq_none hpre]
      | some r =>
        obtain ⟨before, stack, previous⟩ := r
        simp only [Postfix.convertFrom_append hpre, Postfix.convertFrom_group hts,
          Postfix.convertFrom_group hus]
        cases Postfix.convertFrom (Postfix.afterClosing stack).2 (some .closing) post with
        | none => rfl
        | some after => exact run_append_congr ht hu before _

namespace Settings

variable {s : Settings} {t u : Text} {v : Float}

theorem tokens_group (pre t post : Text) :
    s.tokens (pre ++ '(' :: (t ++ ')' :: post)) =
      (s.tokens pre).bind fun before => (s.tokens t).bind fun ts =>
        (s.tokens post).map fun after =>
          before ++ Token.opening :: (ts ++ Token.closing :: after) := by
  unfold tokens
  rw [s.tidy_append_cons (by decide), s.tidy_append_cons (by decide),
    Token.scan_append_cons _ (.inl ⟨rfl, rfl⟩), Token.scan_append_cons _ (.inr ⟨rfl, rfl⟩)]
  cases Token.scan (!s.substitution) (s.tidy pre) with
  | error fault => rfl
  | ok before =>
    cases Token.scan (!s.substitution) (s.tidy t) with
    | error fault => rfl
    | ok ts => cases Token.scan (!s.substitution) (s.tidy post) <;> rfl

theorem inline_group_congr (ht : s.inline t = .ok v) (hu : s.inline u = .ok v) (pre post : Text) :
    s.inline (pre ++ '(' :: (t ++ ')' :: post)) = s.inline (pre ++ '(' :: (u ++ ')' :: post)) := by
  obtain ⟨ts, hts, htv⟩ := exists_of_bind_eq_ok ht
  obtain ⟨us, hus, huv⟩ := exists_of_bind_eq_ok hu
  unfold inline
  rw [tokens_group, tokens_group, hts, hus]
  cases s.tokens pre with
  | error fault => rfl
  | ok before =>
    cases s.tokens post with
    | error fault => rfl
    | ok after => exact Arithmetic.runInfix_group_congr htv huv before after

theorem remainder?_append_cons {c : Char} (hc : c ≠ '1' ∧ c ≠ '/') {before : Text}
    (h : remainder? before = none) (after : Text) : remainder? (before ++ c :: after) = none := by
  unfold remainder?
  split
  · next rest heq =>
    match before, h, heq with
    | [], _, heq => exact absurd (List.cons.inj heq).1 hc.1
    | [x], _, heq =>
      obtain ⟨-, htail⟩ := List.cons.inj heq
      exact absurd (List.cons.inj htail).1 hc.2
    | x :: y :: more, h, heq =>
      obtain ⟨rfl, htail⟩ := List.cons.inj heq
      obtain ⟨rfl, -⟩ := List.cons.inj htail
      cases h
  · rfl

/-- Expressions of one value may be exchanged within parentheses, whatever stands around them. -/
theorem value_evaluate_group_congr (ht : remainder? t = none) (hu : remainder? u = none)
    (htv : (s.evaluate t).value = .ok v) (huv : (s.evaluate u).value = .ok v)
    (pre post : Text) :
    (s.evaluate (pre ++ '(' :: (t ++ ')' :: post))).value =
      (s.evaluate (pre ++ '(' :: (u ++ ')' :: post))).value := by
  rw [value_evaluate_of_remainder?_eq_none s ht] at htv
  rw [value_evaluate_of_remainder?_eq_none s hu] at huv
  -- The texts share every leading `1/`: each is expanded to one decimal in both, or read in place.
  induction s, pre using leading_induction with
  | reciprocal s rest ih =>
    have hinline := inline_group_congr htv huv ('1' :: '/' :: rest) post
    cases hd : s.deeper with
    | none =>
      simp only [List.cons_append, value_evaluate_of_deeper_eq_none hd] at hinline ⊢
      exact hinline
    | some s' =>
      have hrest := ih s' (by rwa [inline_deeper hd]) (by rwa [inline_deeper hd])
      simp only [List.cons_append, value_evaluate_of_deeper hd] at hinline ⊢
      rw [hrest, hinline]
  | other s pre hpre =>
    rw [value_evaluate_of_remainder?_eq_none s (remainder?_append_cons (by decide) hpre _),
      value_evaluate_of_remainder?_eq_none s (remainder?_append_cons (by decide) hpre _)]
    exact inline_group_congr htv huv pre post

theorem value_evaluate_group_congr_two :
    ((standard .native).evaluate
        ("1/5-".toList ++ '(' :: (['4', '/', '2'] ++ ')' :: ['^', '2']))).value =
      ((standard .native).evaluate
        ("1/5-".toList ++ '(' :: (['1', '+', '1'] ++ ')' :: ['^', '2']))).value :=
  value_evaluate_group_congr (v := 2) rfl rfl (eq_ok_of_toOption (by decide +kernel))
    (eq_ok_of_toOption (by decide +kernel)) "1/5-".toList ['^', '2']

end Settings
end Calculator
