import Calculator.Proofs.Expression.Diagnosis
import Calculator.Proofs.Token.Constant

/-!
# Replacing constants in expressions

With substitution constants are replaced in the text of an expression, without it among its tokens.
On safely delimited texts that makes no difference to the tokens of a text as it stands, nor to the
reason why it has none. A leading `1/` is expanded alike in both cases, since its remainder is
safely delimited again and its decimal holds no letter. So both settings order and evaluate the
expression alike.
-/

namespace Calculator

namespace Text

theorem foreign?_substituteConstants (t : Text) :
    (substituteConstants t).foreign? = t.foreign? := by
  have hnumeral : ∀ c ∈ numeralCharacters, (!isExpressionCharacter c) = false :=
    forall_mem_numeralCharacters (by decide)
  rw [foreign?_eq_head?, foreign?_eq_head?,
    filter_substituteConstants hnumeral (by decide) (by decide) (by decide)]

end Text

/-- A safely delimited text has the same tokens, or none for the same reason, in both ways. -/
theorem Token.scan_substituteConstants {t : Text} (h : t.SafelyDelimited) :
    scan false (Text.substituteConstants t) = scan true t := by
  cases hlexemes : lexemes t with
  | error fault =>
    obtain ⟨c, hc, rfl⟩ := lexemes_eq_error_iff.1 hlexemes
    rw [← t.foreign?_substituteConstants] at hc
    rw [scan, scan, hlexemes, lexemes_eq_error_iff.2 ⟨c, hc, rfl⟩]
    rfl
  | ok ts =>
    rw [scan, scan, hlexemes, lexemes_substituteConstants h hlexemes]
    exact congrArg Except.ok (joinReciprocals_map_resolve ts)

/-- The decimal of a double has no letters. -/
theorem Double.safelyDelimited_plain {x : Float} (hx : x.isFinite = true) :
    (plain x).compact.SafelyDelimited := by
  have hnumeral : ∀ c ∈ numeralCharacters, isLetter c = false :=
    forall_mem_numeralCharacters (by decide)
  apply Text.safelyDelimited_of_no_letter
  intro c hc
  have hc : c ∈ plain x := List.mem_of_mem_filter hc
  rw [plain_eq hx] at hc
  rcases List.mem_append.1 hc with hsign | hdecimal
  · split at hsign
    · rw [List.mem_singleton.1 hsign]
      decide
    · cases hsign
  · exact hnumeral c (Decimal.mem_numeralCharacters_of_mem_plain hdecimal)

namespace Settings

variable {s u : Settings} {t rest : Text}

/-- The settings with or without substitution of constants. -/
def substituting (s : Settings) (substitution : Bool) : Settings :=
  { s with substitution := substitution }

/-- The text that is read in place for an expression. -/
def source (s : Settings) (t : Text) : Text :=
  match remainder? t with
  | none => t
  | some rest => (reciprocalText t (s.evaluateRemainder rest)).value

theorem value_ordered (s : Settings) (t : Text) :
    (s.ordered t).value = (s.order (s.tidy (s.source t))).value := by
  have hprepare : (s.prepare t).value = s.tidy (s.source t) := by
    unfold prepare prepareWith source
    cases remainder? t <;> rfl
  rw [← hprepare]
  rfl

/-- Only the outcome of the remainder counts. -/
theorem source_congr
    (h : (s.evaluateRemainder rest).map Logged.value =
      (u.evaluateRemainder rest).map Logged.value) :
    s.source ('1' :: '/' :: rest) = u.source ('1' :: '/' :: rest) := by
  simp only [source, remainder?]
  cases hs : s.evaluateRemainder rest with
  | none =>
    cases hu : u.evaluateRemainder rest with
    | none => rfl
    | some y => simp [hs, hu] at h
  | some x =>
    cases hu : u.evaluateRemainder rest with
    | none => simp [hs, hu] at h
    | some y =>
      obtain ⟨xrecords, xoutcome⟩ := x
      obtain ⟨yrecords, youtcome⟩ := y
      rw [hs, hu] at h
      obtain rfl : xoutcome = youtcome := Option.some.inj h
      cases xoutcome with
      | error fault => rfl
      | ok v =>
        dsimp only [reciprocalText]
        split <;> rfl

/-- What is read in place is the text itself or the decimal of a double. -/
theorem source_eq (s : Settings) (t : Text) :
    s.source t = t ∨ ∃ x : Float, x.isFinite = true ∧ s.source t = Double.plain x := by
  unfold source
  cases remainder? t with
  | none => exact .inl rfl
  | some rest =>
    dsimp only
    cases s.evaluateRemainder rest with
    | none => exact .inl rfl
    | some x =>
      obtain ⟨records, outcome⟩ := x
      cases outcome with
      | error fault => exact .inl rfl
      | ok v =>
        dsimp only [reciprocalText]
        split
        · next hf => exact .inr ⟨_, hf, rfl⟩
        · exact .inl rfl

theorem safelyDelimited_source (s : Settings) (h : t.compact.SafelyDelimited) :
    (s.source t).compact.SafelyDelimited := by
  rcases s.source_eq t with hsource | ⟨x, hx, hsource⟩
  · rw [hsource]
    exact h
  · rw [hsource]
    exact Double.safelyDelimited_plain hx

/-- The order of a text depends on its tokens only. -/
theorem value_order_congr {p q : Text}
    (h : Token.scan (!s.substitution) p = Token.scan (!u.substitution) q) :
    (s.order p).value = (u.order q).value := by
  unfold order listing
  rw [h]

theorem deeper_substituting (s : Settings) (substitution : Bool) :
    (s.substituting substitution).deeper = s.deeper.map (substituting · substitution) := by
  obtain ⟨arithmetic, _, nesting⟩ := s
  cases nesting with
  | none => rfl
  | some n => cases n <;> rfl

/-- Safely delimited texts are ordered alike in both ways if the same text is read for them. -/
theorem value_ordered_substituting (h : t.compact.SafelyDelimited)
    (hsource : (s.substituting true).source t = (s.substituting false).source t) :
    ((s.substituting true).ordered t).value = ((s.substituting false).ordered t).value := by
  rw [value_ordered, value_ordered, ← hsource]
  apply value_order_congr
  exact Token.scan_substituteConstants (safelyDelimited_source _ h)

/-- On a safely delimited text, replacing constants in the text and among the tokens comes to the
same order or fault, and so to the same value or fault, whatever `1/` lead it. -/
theorem value_substituting (s : Settings) (h : t.compact.SafelyDelimited) :
    ((s.substituting true).ordered t).value = ((s.substituting false).ordered t).value ∧
      ((s.substituting true).evaluate t).value = ((s.substituting false).evaluate t).value := by
  suffices hordered :
      ((s.substituting true).ordered t).value = ((s.substituting false).ordered t).value by
    refine ⟨hordered, ?_⟩
    rw [value_evaluate, value_evaluate, hordered]
    rfl
  induction s, t using leading_induction with
  | other s t ht =>
    apply value_ordered_substituting h
    rw [source, source, ht]
  | reciprocal s rest ih =>
    have hrest : rest.compact.SafelyDelimited := by
      rw [Text.compact_reciprocal] at h
      exact (h.of_cons (by decide)).of_cons (by decide)
    apply value_ordered_substituting h
    apply source_congr
    rw [evaluateRemainder, evaluateRemainder, deeper_substituting, deeper_substituting]
    cases s.deeper with
    | none => rfl
    | some s' =>
      have hvalue : ((s'.substituting true).evaluate rest).value =
          ((s'.substituting false).evaluate rest).value := by
        rw [value_evaluate, value_evaluate, ih s' hrest]
        rfl
      exact congrArg some hvalue

/-- Names of functions are left alone in both ways. -/
theorem value_substituting_quotient :
    (((standard .native).substituting true).ordered "1/sin(pi) - e^2".toList).value =
        (((standard .native).substituting false).ordered "1/sin(pi) - e^2".toList).value ∧
      (((standard .native).substituting true).evaluate "1/sin(pi) - e^2".toList).value =
        (((standard .native).substituting false).evaluate "1/sin(pi) - e^2".toList).value :=
  value_substituting (standard .native) (by decide +kernel)

end Settings
end Calculator
