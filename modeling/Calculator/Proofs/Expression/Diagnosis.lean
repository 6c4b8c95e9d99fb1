import Calculator.Proofs.Expression.Reciprocal
import Calculator.Proofs.Postfix.Conservation
import Calculator.Proofs.Postfix.Nesting
import Calculator.Proofs.Postfix.Progress
import Calculator.Proofs.Token.Shape

/-!
# The diagnosis of an expression

Which fault an expression has is settled by its characters first and by its parentheses next: the
first character that no expression has is reported, then parentheses that do not match, and only
then can a computation fail, never for an unknown operator. Tidying changes none of this, and
neither does a leading `1/`: when its remainder has a value, the remainder has no such character and
its parentheses match, and otherwise the whole text is read in place.
-/

namespace Calculator

namespace Text

variable {p : Char → Bool}

theorem filter_eq_nil_of_numeral (hp : ∀ c ∈ numeralCharacters, p c = false) {t : Text}
    (ht : t.all numeralCharacters.contains = true) : t.filter p = [] := by
  refine List.filter_eq_nil_iff.2 fun c hc => ?_
  have hmem := List.contains_iff_mem.1 (List.all_eq_true.1 ht c hc)
  simp [hp c hmem]

/-- Constants are digits and a point, written for letters. -/
theorem filter_substituteConstants (hnumeral : ∀ c ∈ numeralCharacters, p c = false)
    (hp : p 'p' = false) (hi : p 'i' = false) (he : p 'e' = false) (t : Text) :
    (substituteConstants t).filter p = t.filter p := by
  have hconstant : Constant.pi.filter p = [] ∧ Constant.e.filter p = [] :=
    ⟨filter_eq_nil_of_numeral hnumeral rfl, filter_eq_nil_of_numeral hnumeral rfl⟩
  have hpi : (substitutePi t).filter p = t.filter p := by
    fun_induction substitutePi t with
    | case1 rest ih =>
      rw [List.filter_append, hconstant.1, ih, List.nil_append,
        List.filter_cons_of_neg (by simp [hp]), List.filter_cons_of_neg (by simp [hi])]
    | case2 c rest h ih => rw [List.filter_cons, List.filter_cons, ih]
    | case3 => rfl
  rw [substituteConstants, ← hpi, substituteE]
  induction substitutePi t with
  | nil => rfl
  | cons c rest ih =>
    rw [List.flatMap_cons, List.filter_append, ih]
    by_cases hc : c = 'e'
    · subst c
      rw [if_pos rfl, hconstant.2, List.nil_append, List.filter_cons_of_neg (by simp [he])]
    · rw [if_neg hc, ← List.filter_append, List.singleton_append]

theorem compact_reciprocal (rest : Text) :
    compact ('1' :: '/' :: rest) = '1' :: '/' :: rest.compact := by
  rw [compact, List.filter_cons_of_pos (by decide), List.filter_cons_of_pos (by decide)]
  rfl

theorem foreign?_cons {c : Char} (h : isExpressionCharacter c = true) (t : Text) :
    foreign? (c :: t) = t.foreign? := by
  rw [foreign?, List.find?_cons, h]
  rfl

theorem foreign?_eq_head? (t : Text) :
    t.foreign? = (t.filter fun c => !isExpressionCharacter c).head? := List.head?_filter.symm

end Text

namespace Settings

variable (s : Settings)

theorem filter_tidy {p : Char → Bool} (hnumeral : ∀ c ∈ numeralCharacters, p c = false)
    (hp : p 'p' = false) (hi : p 'i' = false) (he : p 'e' = false) (t : Text) :
    (s.tidy t).filter p = t.compact.filter p := by
  unfold tidy
  cases s.substitution with
  | false => rfl
  | true => exact Text.filter_substituteConstants hnumeral hp hi he t.compact

theorem foreign?_tidy (t : Text) : (s.tidy t).foreign? = t.compact.foreign? := by
  have hnumeral : ∀ c ∈ numeralCharacters, (!isExpressionCharacter c) = false :=
    forall_mem_numeralCharacters (by decide)
  rw [Text.foreign?_eq_head?, Text.foreign?_eq_head?,
    s.filter_tidy hnumeral (by decide) (by decide) (by decide)]

theorem openAfter_tidy (t : Text) (n : Nat) :
    openAfter '(' ')' n (s.tidy t) = openAfter '(' ')' n t.compact := by
  have hnumeral : ∀ c ∈ numeralCharacters, (c == '(' || c == ')') = false :=
    forall_mem_numeralCharacters (by decide)
  rw [← openAfter_filter (p := fun c => c == '(' || c == ')') rfl rfl,
    s.filter_tidy hnumeral rfl rfl rfl, openAfter_filter rfl rfl]

end Settings

/-- The tokens that pass for the tokens of a text can be computed with. -/
theorem Postfix.computable_of_mem_contributions {ts : List Token} (hts : ∀ t ∈ ts, t.Proper)
    (previous : Option Kind) : ∀ t ∈ contributions previous ts, t.Computable := by
  intro t ht
  obtain ⟨hopening, hclosing⟩ := kind_ne_of_mem_contributions ht
  rcases mem_contributions ht with ht | rfl | rfl
  · cases hts t ht with
    | number text => exact .inl rfl
    | identifier name => exact .inr (.inl rfl)
    | operator op =>
      refine .inr (.inr ?_)
      change (Operator.ofSymbol? op.symbol).isSome = true
      rw [Operator.ofSymbol?_symbol, Option.isSome_some]
    | opening => exact absurd rfl hopening
    | closing => exact absurd rfl hclosing
  · exact .inl rfl
  · exact .inr (.inr rfl)

/-- What an outcome tells about the characters and the parentheses of a text. -/
inductive Diagnosis (t : Text) : Except Fault Float → Prop
  | invalidCharacter {c : Char} (h : t.foreign? = some c) :
    Diagnosis t (.error (.invalidCharacter c))
  | mismatchedParentheses (h : t.foreign? = none) (hb : ¬ Balanced '(' ')' t) :
    Diagnosis t (.error .mismatchedParentheses)
  | value (h : t.foreign? = none) (hb : Balanced '(' ')' t) (v : Float) : Diagnosis t (.ok v)
  | fault (h : t.foreign? = none) (hb : Balanced '(' ')' t) {fault : Fault}
    (hf : fault.OfComputation) : Diagnosis t (.error fault)

namespace Settings

variable {s s' : Settings} {t rest : Text} {v w : Float}

theorem balanced_of_tokens {ts : List Token} (h : s.tokens t = .ok ts) :
    Postfix.Matched ts ↔ Balanced '(' ')' t.compact := by
  rw [Postfix.Matched, balanced_iff (by decide), balanced_iff (by decide), Token.openAfter_scan h,
    s.openAfter_tidy]

theorem diagnosis_inline (s : Settings) (t : Text) : Diagnosis t.compact (s.inline t) := by
  unfold inline
  cases hts : s.tokens t with
  | error fault =>
    obtain ⟨c, hc, rfl⟩ := Token.scan_eq_error_iff.1 hts
    rw [s.foreign?_tidy] at hc
    exact .invalidCharacter hc
  | ok ts =>
    have hforeign : t.compact.foreign? = none := by
      rw [← s.foreign?_tidy, Option.eq_none_iff_forall_ne_some]
      intro c hc
      have herror : s.tokens t = .error (.invalidCharacter c) :=
        Token.scan_eq_error_iff.2 ⟨c, hc, rfl⟩
      rw [herror] at hts
      cases hts
    have hbalanced := balanced_of_tokens hts
    rw [← Postfix.isSome_ofInfix?_iff] at hbalanced
    change Diagnosis t.compact (s.arithmetic.runInfix ts)
    unfold Arithmetic.runInfix
    cases hordered : Postfix.ofInfix? ts with
    | none =>
      refine .mismatchedParentheses hforeign fun hb => ?_
      rw [← hbalanced, hordered] at hb
      cases hb
    | some ordered =>
      have hb := hbalanced.1 (by rw [hordered]; rfl)
      have hcomputable : ∀ u ∈ ordered, u.Computable := fun u hu =>
        Postfix.computable_of_mem_contributions (Token.proper_scan hts) none u
          ((Postfix.perm_ofInfix? hordered).mem_iff.1 hu)
      dsimp only
      cases hrun : s.arithmetic.run ordered with
      | error fault => exact .fault hforeign hb (Arithmetic.fault_of_run hcomputable hrun)
      | ok v => exact .value hforeign hb v

/-- A remainder with a value has the characters and the parentheses of an expression, and then so
has the text with its `1/`. -/
theorem diagnosis_reciprocal (h : Diagnosis rest.compact (.ok v)) :
    Diagnosis (Text.compact ('1' :: '/' :: rest)) (.ok w) := by
  cases h with
  | value hforeign hb =>
    rw [Text.compact_reciprocal]
    refine .value ?_ ?_ w
    · rw [Text.foreign?_cons (by decide), Text.foreign?_cons (by decide), hforeign]
    · rw [balanced_iff (by decide)] at hb ⊢
      rw [openAfter_cons_of_ne (by decide) (by decide),
        openAfter_cons_of_ne (by decide) (by decide), hb]

theorem diagnosis_evaluate (s : Settings) (t : Text) :
    Diagnosis t.compact (s.evaluate t).value := by
  induction s, t using leading_induction with
  | other s t ht =>
    rw [value_evaluate_of_remainder?_eq_none s ht]
    exact s.diagnosis_inline t
  | reciprocal s rest ih =>
    have hinline := s.diagnosis_inline ('1' :: '/' :: rest)
    cases hd : s.deeper with
    | none =>
      rw [value_evaluate_of_deeper_eq_none hd]
      exact hinline
    | some s' =>
      cases hv : (s'.evaluate rest).value with
      | error fault =>
        rw [value_evaluate_of_error hd hv]
        exact hinline
      | ok v =>
        cases hf : (Arithmetic.reciprocal v).isFinite with
        | false =>
          rw [value_evaluate_of_not_isFinite hd hv hf]
          exact hinline
        | true =>
          rw [value_evaluate_of_isFinite hd hv hf]
          have hrest := ih s'
          rw [hv] at hrest
          exact diagnosis_reciprocal hrest

/-- The first character that no expression has is the fault of an expression; without one,
parentheses that do not match are; and otherwise the expression has a value or a computation of it
fails, which is never for an unknown operator. -/
theorem value_evaluate_eq_error_iff (s : Settings) (t : Text) :
    (∀ c, (s.evaluate t).value = .error (.invalidCharacter c) ↔ t.compact.foreign? = some c) ∧
    ((s.evaluate t).value = .error .mismatchedParentheses ↔
      t.compact.foreign? = none ∧ ¬ Balanced '(' ')' t.compact) ∧
    (t.compact.foreign? = none → Balanced '(' ')' t.compact →
      (∃ v, (s.evaluate t).value = .ok v) ∨
        ∃ fault, (s.evaluate t).value = .error fault ∧ fault.OfComputation) ∧
    ∀ symbol, (s.evaluate t).value ≠ .error (.unknownOperator symbol) := by
  have hd := s.diagnosis_evaluate t
  generalize (s.evaluate t).value = outcome at hd ⊢
  cases hd with
  | invalidCharacter h => simp [h]
  | mismatchedParentheses h hb => simp [h, hb]
  | value h hb v => simp [h, hb]
  | fault h hb hf =>
    refine ⟨fun c => ?_, ?_, fun _ _ => .inr ⟨_, rfl, hf⟩, fun symbol => ?_⟩
    · cases hf <;> simp [h]
    · cases hf <;> simp [hb]
    · cases hf <;> simp

end Settings
end Calculator
