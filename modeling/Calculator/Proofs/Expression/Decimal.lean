import Calculator.Proofs.Expression.Inline
import Calculator.Proofs.Grammar.Value
import Calculator.Proofs.Number.Display
import Calculator.Proofs.Number.Fields
import Calculator.Proofs.Postfix.Expression

/-!
# Reading decimals in place

A decimal without an exponent is one token, with a minus sign before it if it is negative, and
neither white space nor constants occur in it. So the decimal of a finite double is read in place
as that double, `plain_reads_back`. Only the sign of a zero is lost, because a negative number is
read as the difference of zero and its magnitude.
-/

namespace Calculator

namespace Token

variable {t : Text}

theorem lexemes_number (hne : t ≠ []) (ht : ∀ c ∈ t, Kind.ofChar? c = some .number) :
    lexemes t = .ok [number t] := by
  induction t with
  | nil => exact absurd rfl hne
  | cons c rest ih =>
    rw [lexemes, ht c List.mem_cons_self]
    cases rest with
    | nil => rfl
    | cons d more =>
      dsimp only
      rw [ih (List.cons_ne_nil d more) fun x hx => ht x (List.mem_cons_of_mem c hx)]
      rfl

theorem lexemes_numeral (hne : t ≠ []) (ht : ∀ c ∈ t, c ∈ numeralCharacters) :
    lexemes t = .ok [number t] := by
  have hkind : ∀ c ∈ numeralCharacters, Kind.ofChar? c = some .number :=
    forall_mem_numeralCharacters (by decide)
  exact lexemes_number hne fun c hc => hkind c (ht c hc)

theorem scan_numeral (hne : t ≠ []) (ht : ∀ c ∈ t, c ∈ numeralCharacters) (constants : Bool) :
    scan constants t = .ok [number t] := by
  rw [scan, lexemes_numeral hne ht]
  cases constants <;> rfl

theorem scan_minus_numeral (hne : t ≠ []) (ht : ∀ c ∈ t, c ∈ numeralCharacters)
    (constants : Bool) : scan constants ('-' :: t) = .ok [binary .sub, number t] := by
  have hminus : Kind.ofChar? '-' = some .operator := by decide
  have hone : operator ['-'] ≠ one := by decide
  have hjoin : joinReciprocals [operator ['-'], number t] = [operator ['-'], number t] := by
    rw [joinReciprocals, if_neg fun h => hone h.1]
    rfl
  rw [scan, lexemes, hminus, lexemes_numeral hne ht]
  change Except.ok (if constants then (joinReciprocals [operator ['-'], number t]).map resolve
    else joinReciprocals [operator ['-'], number t]) = _
  rw [hjoin]
  cases constants <;> rfl

end Token

namespace Text

theorem substitutePi_eq_self {t : Text} (h : 'p' ∉ t) : substitutePi t = t := by
  fun_induction substitutePi t with
  | case1 rest ih => exact absurd List.mem_cons_self h
  | case2 c rest hc ih => rw [ih fun hr => h (List.mem_cons_of_mem c hr)]
  | case3 => rfl

theorem substituteConstants_eq_self {t : Text} (hp : 'p' ∉ t) (he : 'e' ∉ t) :
    substituteConstants t = t := by
  rw [substituteConstants, substitutePi_eq_self hp, substituteE]
  induction t with
  | nil => rfl
  | cons c rest ih =>
    have hc : c ≠ 'e' := fun hc => he (hc ▸ List.mem_cons_self)
    rw [List.flatMap_cons, if_neg hc, List.singleton_append,
      ih (fun h => hp (List.mem_cons_of_mem c h)) fun h => he (List.mem_cons_of_mem c h)]

end Text

namespace Arithmetic

variable (a : Arithmetic)

theorem runInfix_tokens {l : Level} (d : Derivation l) : a.runInfix d.tokens = d.value a := by
  rw [runInfix, (Postfix.readsAs_tokens d).ofInfix?_eq]
  exact d.run_postorder a

/-- A decimal is read as itself, and behind a minus sign as its difference from zero. -/
theorem runInfix_scan_signed (d : Decimal) (negative constants : Bool) :
    (Token.scan constants ((if negative then ['-'] else []) ++ d.plain)).bind a.runInfix =
      .ok (if negative then 0 - d.toFloat else d.toFloat) := by
  have hchars : ∀ c ∈ d.plain, c ∈ numeralCharacters := fun c =>
    Decimal.mem_numeralCharacters_of_mem_plain
  cases negative with
  | false =>
    have hscan : Token.scan constants d.plain = .ok (Derivation.number d.plain).tokens :=
      Token.scan_numeral d.plain_ne_nil hchars constants
    have hvalue := a.runInfix_tokens (.number d.plain)
    rw [Derivation.value, Numeral.double?_plain] at hvalue
    rw [if_neg Bool.false_ne_true, List.nil_append, hscan]
    exact hvalue
  | true =>
    have hscan : Token.scan constants ('-' :: d.plain) =
        .ok (Derivation.negation (.single (.number d.plain))).tokens :=
      Token.scan_minus_numeral d.plain_ne_nil hchars constants
    have hvalue := a.runInfix_tokens (.negation (.single (.number d.plain)))
    simp only [Derivation.value, Numeral.double?_plain] at hvalue
    rw [if_pos rfl, List.singleton_append, hscan]
    exact hvalue

end Arithmetic

namespace Double

variable {x : Float}

theorem Notation.write_of_isFinite (n : Notation) (hx : x.isFinite = true) :
    n.write x = (if isNegative x then ['-'] else []) ++ n.finite (shortest (magnitude x)) := by
  rw [write, isNaN_eq_false hx, isInf_eq_false hx, if_neg Bool.false_ne_true,
    if_neg Bool.false_ne_true]

theorem plain_eq (hx : x.isFinite = true) :
    plain x = (if isNegative x then ['-'] else []) ++ (shortest (magnitude x)).plain :=
  Notation.write_of_isFinite _ hx

theorem mem_plain (hx : x.isFinite = true) : ∀ c ∈ plain x, c = '-' ∨ c ∈ numeralCharacters := by
  intro c hc
  rw [plain_eq hx, List.mem_append] at hc
  rcases hc with hc | hc
  · split at hc
    · exact .inl (List.mem_singleton.1 hc)
    · cases hc
  · exact .inr (Decimal.mem_numeralCharacters_of_mem_plain hc)

/-- A finite double is read from its decimal, without the sign of a zero. -/
theorem runInfix_scan_plain (a : Arithmetic) (hx : x.isFinite = true) (constants : Bool) :
    (Token.scan constants (plain x)).bind a.runInfix = .ok (plainZero x) := by
  have hread := magnitude_shortest (magnitude_lt hx)
  rw [plain_eq hx, a.runInfix_scan_signed, Decimal.toFloat, hread]
  obtain ⟨sign, e, m, he, rfl⟩ := exists_eq_ofFields hx
  rw [ofMagnitude_magnitude he, isNegative_ofFields he]
  cases sign with
  | positive => exact congrArg Except.ok (plainZero_ofFields_positive he).symm
  | negative => exact congrArg Except.ok (zero_sub_ofFields he)

theorem eq_zero_or_of_beq_zero (hx : x.isFinite = true) (h : (x == 0) = true) : x = 0 ∨ x = -0 := by
  obtain ⟨s, e, m, he, rfl⟩ := exists_eq_ofFields hx
  rw [ofFields_beq_zero he] at h
  unfold datum at h
  split at h
  · next hexponent =>
    split at h
    · next hmantissa =>
      subst hexponent hmantissa
      cases s with
      | positive => exact .inl rfl
      | negative => exact .inr rfl
    · cases s <;> exact absurd h Bool.false_ne_true
  · cases s <;> exact absurd h Bool.false_ne_true

/-- Only the negative zero has a sign to lose. -/
theorem plainZero_eq_ite (hx : x.isFinite = true) : plainZero x = if x = -0 then 0 else x := by
  unfold plainZero
  by_cases hneg : x = -0
  · rw [if_pos hneg, hneg, if_pos (by decide +kernel)]
  · rw [if_neg hneg]
    split
    · next hzero => exact ((eq_zero_or_of_beq_zero hx hzero).resolve_right hneg).symm
    · rfl

end Double

namespace Settings

variable (s : Settings)

theorem tidy_of_filter {text t : Text} (h : text.filter (fun c => !isSpace c) = t) (hp : 'p' ∉ t)
    (he : 'e' ∉ t) : s.tidy text = t := by
  rw [tidy, h]
  cases s.substitution with
  | false => rfl
  | true => exact Text.substituteConstants_eq_self hp he

theorem tidy_eq_self {t : Text} (h : ∀ c ∈ t, c = '-' ∨ c ∈ numeralCharacters) :
    s.tidy t = t := by
  have hnumeral : ∀ c ∈ numeralCharacters, isSpace c = false ∧ c ≠ 'p' ∧ c ≠ 'e' :=
    forall_mem_numeralCharacters (by decide)
  have hkept (c : Char) (hc : c ∈ t) : isSpace c = false ∧ c ≠ 'p' ∧ c ≠ 'e' := by
    rcases h c hc with rfl | hc
    · decide
    · exact hnumeral c hc
  have hfilter : t.filter (fun c => !isSpace c) = t :=
    List.filter_eq_self.2 fun c hc => by rw [(hkept c hc).1]; rfl
  exact s.tidy_of_filter hfilter (fun hp => (hkept _ hp).2.1 rfl) fun he => (hkept _ he).2.2 rfl

theorem inline_of_tokens {t : Text} {l : Level} {d : Derivation l}
    (h : s.tokens t = .ok d.tokens) : s.inline t = d.value s.arithmetic := by
  rw [inline, h]
  exact s.arithmetic.runInfix_tokens d

theorem inline_plain {x : Float} (hx : x.isFinite = true) :
    s.inline (Double.plain x) = .ok (Double.plainZero x) := by
  rw [inline, tokens, s.tidy_eq_self (Double.mem_plain hx)]
  exact Double.runInfix_scan_plain s.arithmetic hx _

end Settings

/-- The decimal of a finite double is a sign and ASCII digits with at most one point, so it has no
exponent, and it denotes the same decimal as the double displayed does. Tidied and read in place,
with names of constants recognised or not, it has the double as its value, and the negative zero
has zero. -/
theorem Double.plain_reads_back {x : Float} (hx : x.isFinite = true) :
    (∃ whole fraction : Text,
      plain x = (if isNegative x then ['-'] else []) ++ positional whole fraction ∧
      whole ≠ [] ∧ ∀ c ∈ whole ++ fraction, c.isDigit = true) ∧
    (∃ d : Decimal, d.magnitude = magnitude x ∧
      Numeral.denoted? (plain x) = some (isNegative x, d) ∧
      Numeral.denoted? (display x) = some (isNegative x, d)) ∧
    ∀ (s : Settings) (constants : Bool),
      (Token.scan constants (s.tidy (plain x))).bind s.arithmetic.runInfix =
        .ok (if x = -0 then 0 else x) := by
  let d := shortest (magnitude x)
  have hplain : plain x = (if isNegative x then ['-'] else []) ++ d.plain := plain_eq hx
  have hdisplay : display x = (if isNegative x then ['-'] else []) ++ d.display :=
    Notation.write_of_isFinite _ hx
  refine ⟨?_, ⟨d, magnitude_shortest (magnitude_lt hx), ?_, ?_⟩, fun s constants => ?_⟩
  · obtain ⟨whole, fraction, hd⟩ := d.exists_positional
    exact ⟨whole, fraction, by rw [hplain, hd.plain_eq], hd.whole_ne_nil, hd.isDigit⟩
  · rw [hplain]
    exact Numeral.denoted?_signed _ (Numeral.decimal?_plain d) d.plain_eq_cons
  · rw [hdisplay]
    exact Numeral.denoted?_signed _ (Numeral.decimal?_display d) (Numeral.display_eq_cons d)
  · rw [s.tidy_eq_self (mem_plain hx), runInfix_scan_plain s.arithmetic hx, plainZero_eq_ite hx]

/-- A decimal with zeros before its digits, and a zero that loses its sign. -/
theorem Double.plain_reads_back_tiny :
    plain (-1.5e-7) = "-0.00000015".toList ∧ display (-1.5e-7) = "-1.5e-07".toList ∧
    (Token.scan true (plain (-1.5e-7))).bind (Settings.standard .native).arithmetic.runInfix =
      .ok (-1.5e-7) ∧
    (Token.scan true (plain (-0))).bind (Settings.standard .native).arithmetic.runInfix =
      .ok 0 := by
  have htiny := plain_reads_back (x := -1.5e-7) (by decide +kernel)
  have hzero := plain_reads_back (x := -0) (by decide +kernel)
  have hread := htiny.2.2 (.standard .native) true
  have hread' := hzero.2.2 (.standard .native) true
  rw [Settings.tidy_eq_self _ (mem_plain (by decide +kernel)), if_neg (by decide +kernel)] at hread
  rw [Settings.tidy_eq_self _ (mem_plain (by decide +kernel)), if_pos rfl] at hread'
  exact ⟨by decide +kernel, by decide +kernel, hread, hread'⟩

end Calculator
