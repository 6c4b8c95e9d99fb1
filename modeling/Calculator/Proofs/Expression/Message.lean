import Calculator.Proofs.Expression.Inline
import Calculator.Proofs.Number.Written
import Calculator.Proofs.Postfix.Conservation
import Calculator.Proofs.Text.Printable
import Calculator.Proofs.Token.Canonical

/-!
# What is said of an expression prints

Values and messages are made of printable characters, whatever the expression holds. A message
either quotes what it is about or repeats the text of a token, and tokens are runs of letters and
digits, operators and parentheses.
-/

namespace Calculator

open Text

namespace Decimal

variable (d : Decimal)

theorem prints_digits : d.digits.Prints := prints_toDigits (by decide) (by decide) _

theorem prints_plain : d.plain.Prints := by
  intro c hc
  have hnumeral : ∀ c ∈ numeralCharacters, isPrintable c = true :=
    forall_mem_numeralCharacters (by decide +kernel)
  exact hnumeral c (mem_numeralCharacters_of_mem_plain hc)

theorem prints_exponentPart (e : Int) : (exponentPart e).Prints := by
  have hsign : isPrintable (if e < 0 then '-' else '+') = true := by
    split
    · decide +kernel
    · decide +kernel
  refine prints_cons.2 ⟨by decide +kernel, prints_cons.2 ⟨hsign, prints_append.2 ⟨?_, ?_⟩⟩⟩
  · exact prints_replicate _ (by decide +kernel)
  · exact prints_toDigits (by decide) (by decide) _

theorem prints_scientific : d.scientific.Prints := by
  have hleading : Prints (d.digits.take 1) := fun c hc =>
    d.prints_digits c (List.mem_of_mem_take hc)
  have hfraction : Prints (d.digits.drop 1) := fun c hc =>
    d.prints_digits c (List.mem_of_mem_drop hc)
  refine prints_append.2 ⟨prints_append.2 ⟨hleading, ?_⟩, prints_exponentPart _⟩
  split
  · exact prints_nil
  · exact prints_cons.2 ⟨by decide +kernel, hfraction⟩

theorem prints_display : d.display.Prints := by
  unfold display
  split
  · exact d.prints_plain
  · exact d.prints_scientific

end Decimal

theorem Double.prints_display (x : Float) : (Double.display x).Prints := by
  unfold display Notation.write
  split
  · decide +kernel
  · refine prints_append.2 ⟨?_, ?_⟩
    · split
      · decide +kernel
      · exact prints_nil
    · split
      · decide +kernel
      · exact (shortest (magnitude x)).prints_display

theorem Kind.isPrintable_of_ofChar? {c : Char} {k : Kind} (h : ofChar? c = some k) :
    isPrintable c = true := by
  cases k with
  | number =>
    rcases ofChar?_eq_number_iff.1 h with hc | rfl
    · exact isPrintable_of_isDigit hc
    · decide +kernel
  | identifier => exact isPrintable_of_isLetter (ofChar?_eq_identifier_iff.1 h)
  | operator =>
    have hsymbols : Prints ['+', '-', '*', '/', '^'] := by decide +kernel
    exact hsymbols c (mem_of_ofChar?_eq_operator h)
  | opening =>
    obtain rfl := ofChar?_eq_opening_iff.1 h
    decide +kernel
  | closing =>
    obtain rfl := ofChar?_eq_closing_iff.1 h
    decide +kernel

namespace Token

variable {c : Char} {k : Kind} {t : Token} {ts : List Token} {text : Text}

theorem prints_extend (hc : isPrintable c = true) (hts : ∀ t ∈ ts, t.text.Prints) :
    ∀ t ∈ extend k c ts, t.text.Prints := by
  rcases extend_eq k c ts with h | ⟨run, rest, rfl, -, h⟩
  · rw [h]
    exact List.forall_mem_cons.2 ⟨prints_cons.2 ⟨hc, prints_nil⟩, hts⟩
  · obtain ⟨hrun, hrest⟩ := List.forall_mem_cons.1 hts
    rw [h]
    exact List.forall_mem_cons.2 ⟨prints_cons.2 ⟨hc, hrun⟩, hrest⟩

theorem prints_lexemes (h : lexemes text = .ok ts) : ∀ t ∈ ts, t.text.Prints := by
  induction text generalizing ts with
  | nil =>
    cases h
    exact List.forall_mem_nil _
  | cons c text ih =>
    obtain ⟨k, us, hk, hus, rfl⟩ := exists_of_lexemes_cons h
    exact prints_extend (Kind.isPrintable_of_ofChar? hk) (ih hus)

theorem prints_resolve (h : t.text.Prints) : t.resolve.text.Prints := by
  rw [resolve_eq_ite]
  split_ifs
  · decide +kernel
  · decide +kernel
  · exact h

theorem prints_scan {constants : Bool} (h : scan constants text = .ok ts) :
    ∀ t ∈ ts, t.text.Prints := by
  obtain ⟨us, hus, rfl⟩ := Outcome.exists_of_map_eq_ok h
  have hjoined : ∀ t ∈ joinReciprocals us, t.text.Prints := by
    intro t ht
    rcases mem_joinReciprocals ht with ht | rfl
    · exact prints_lexemes hus t ht
    · decide +kernel
  cases constants with
  | false => exact hjoined
  | true =>
    intro t ht
    obtain ⟨u, hu, rfl⟩ := List.mem_map.1 ht
    exact prints_resolve (hjoined u hu)

end Token

namespace Postfix

variable {t : Token} {ts listing : List Token}

theorem prints_ofInfix? (hts : ∀ t ∈ ts, t.text.Prints) (h : ofInfix? ts = some listing) :
    ∀ t ∈ listing, t.text.Prints := by
  intro t ht
  rcases mem_contributions ((perm_ofInfix? h).mem_iff.1 ht) with ht | rfl | rfl
  · exact hts t ht
  · decide +kernel
  · decide +kernel

end Postfix

namespace Fault

/-- The text that a message repeats without quotes. -/
def repeated : Fault → Text
  | .missingOperand symbol => symbol
  | .unreadable literal => literal
  | _ => []

theorem prints_message {fault : Fault} (h : fault.repeated.Prints) : fault.message.Prints := by
  cases fault with
  | invalidCharacter c =>
    exact prints_append.2 ⟨by decide +kernel, prints_quoted [c]⟩
  | mismatchedParentheses => decide +kernel
  | missingOperand symbol => exact prints_append.2 ⟨by decide +kernel, h⟩
  | unknownFunction name =>
    exact prints_append.2 ⟨by decide +kernel, prints_quoted name⟩
  | unknownOperator symbol =>
    exact prints_append.2 ⟨by decide +kernel, prints_quoted symbol⟩
  | factorialDomain x =>
    exact prints_append.2 ⟨by decide +kernel, Double.prints_display x⟩
  | unreadable literal => exact prints_append.2 ⟨by decide +kernel, h⟩
  | leftover count =>
    refine prints_append.2 ⟨prints_append.2 ⟨by decide +kernel, ?_⟩, ?_⟩
    · exact prints_toDigits (by decide) (by decide) count
    · decide +kernel

end Fault

namespace Arithmetic

variable {a : Arithmetic} {stack : List Float} {t : Token} {ts : List Token} {fault : Fault}

theorem repeated_of_apply {f : FunctionName} {x : Float} (h : a.apply f x = .error fault) :
    fault.repeated = [] := by
  cases f with
  | fact =>
    change factorial x = _ at h
    unfold factorial at h
    split at h
    · obtain rfl := Except.error.inj h
      rfl
    · cases h
  | sin | cos | tan | log | ln | sqrt | asin | acos | atan => cases h

theorem repeated_of_step (h : a.step stack t = .error fault) :
    fault.repeated = [] ∨ fault.repeated = t.text := by
  obtain ⟨kind, text⟩ := t
  cases kind with
  | number =>
    change stepNumber stack text = _ at h
    unfold stepNumber at h
    split at h
    · obtain rfl := Except.error.inj h
      exact .inr rfl
    · cases h
  | identifier =>
    change a.stepCall stack text = _ at h
    unfold stepCall at h
    split at h
    · obtain rfl := Except.error.inj h
      exact .inl rfl
    · obtain rfl := Except.error.inj h
      exact .inr rfl
    · next f x rest _ =>
      cases hx : a.apply f x with
      | ok y => simp [hx, Except.map] at h
      | error fault' =>
        rw [hx] at h
        obtain rfl := Except.error.inj h
        exact .inl (repeated_of_apply hx)
  | operator | opening | closing =>
    change a.stepOperator stack text = _ at h
    unfold stepOperator at h
    split at h
    · obtain rfl := Except.error.inj h
      exact .inl rfl
    · cases h
    · cases h
    · obtain rfl := Except.error.inj h
      exact .inr rfl

theorem repeated_of_foldlM_step (h : ts.foldlM a.step stack = .error fault) :
    fault.repeated = [] ∨ ∃ t ∈ ts, fault.repeated = t.text := by
  induction ts generalizing stack with
  | nil => cases h
  | cons t ts ih =>
    rw [List.foldlM_cons] at h
    cases hstep : a.step stack t with
    | error fault' =>
      rw [hstep] at h
      obtain rfl := Except.error.inj h
      exact (repeated_of_step hstep).imp_right fun h => ⟨t, List.mem_cons_self, h⟩
    | ok next =>
      rw [hstep] at h
      exact (ih h).imp_right fun ⟨u, hu, h⟩ => ⟨u, List.mem_cons_of_mem t hu, h⟩

/-- The message of a failed computation repeats nothing but the text of a token. -/
theorem repeated_of_run (h : a.run ts = .error fault) :
    fault.repeated = [] ∨ ∃ t ∈ ts, fault.repeated = t.text := by
  unfold run at h
  cases hstack : ts.foldlM a.step [] with
  | error fault' =>
    rw [hstack] at h
    obtain rfl := Except.error.inj h
    exact repeated_of_foldlM_step hstack
  | ok stack =>
    rw [hstack] at h
    change result stack = _ at h
    unfold result at h
    split at h
    · cases h
    · obtain rfl := Except.error.inj h
      exact .inl rfl

end Arithmetic

namespace Settings

variable {s : Settings} {t : Text} {fault : Fault}

theorem prints_repeated_of_inline (h : s.inline t = .error fault) : fault.repeated.Prints := by
  unfold inline at h
  cases hts : s.tokens t with
  | error fault' =>
    rw [hts] at h
    obtain rfl := Except.error.inj h
    obtain ⟨c, -, rfl⟩ := Token.scan_eq_error_iff.1 hts
    exact prints_nil
  | ok ts =>
    rw [hts] at h
    change s.arithmetic.runInfix ts = _ at h
    unfold Arithmetic.runInfix at h
    cases hordered : Postfix.ofInfix? ts with
    | none =>
      rw [hordered] at h
      obtain rfl := Except.error.inj h
      exact prints_nil
    | some ordered =>
      rw [hordered] at h
      have hprints := Postfix.prints_ofInfix? (Token.prints_scan hts) hordered
      rcases Arithmetic.repeated_of_run h with hnil | ⟨u, hu, htext⟩
      · rw [hnil]
        exact prints_nil
      · rw [htext]
        exact hprints u hu

/-- An expression has the outcome of a text that is read in place. -/
theorem exists_inline (s : Settings) (t : Text) : ∃ u, (s.evaluate t).value = s.inline u := by
  cases hr : remainder? t with
  | none => exact ⟨t, value_evaluate_of_remainder?_eq_none s hr⟩
  | some rest =>
    obtain rfl := eq_of_remainder?_eq_some hr
    cases hd : s.deeper with
    | none => exact ⟨_, value_evaluate_of_deeper_eq_none hd rest⟩
    | some s' =>
      rw [value_evaluate_of_deeper hd]
      split
      · exact ⟨_, rfl⟩
      · split
        · exact ⟨_, rfl⟩
        · exact ⟨_, rfl⟩

theorem prints_message (h : (s.evaluate t).value = .error fault) : fault.message.Prints := by
  obtain ⟨u, hu⟩ := s.exists_inline t
  rw [hu] at h
  exact Fault.prints_message (prints_repeated_of_inline h)

end Settings
end Calculator
