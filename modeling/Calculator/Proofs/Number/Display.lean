import Calculator.Proofs.Number.Written

/-!
# Two notations of one number

A text denotes a sign and a decimal, by its digits, its point and its exponent. The notation of
results moves the point behind the first digit of a very large or very small decimal and says so in
an exponent; the notation without an exponent fills up with zeros instead. Both denote the decimal
that they were written for.
-/

namespace Calculator

namespace Numeral

/-- The sign and the decimal that a text denotes. -/
def denoted? (t : Text) : Option (Bool × Decimal) :=
  (decimal? (splitSign t).2).map fun d => ((splitSign t).1, d)

variable {t digits : Text} {c : Char}

theorem signedDigits?_cons (negative : Bool) (hne : digits ≠ [])
    (h : ∀ c ∈ digits, c.isDigit = true) :
    signedDigits? ((if negative then '-' else '+') :: digits) =
      some (if negative then -(Nat.ofDigitChars 10 digits 0 : Int)
        else Nat.ofDigitChars 10 digits 0) := by
  have hall : digits.all Char.isDigit = true := List.all_eq_true.2 h
  cases negative <;> simp [signedDigits?, splitSign, hne, hall]

/-- A written exponent is read as itself. -/
theorem exponent?_exponentPart (e : Int) : exponent? (Decimal.exponentPart e) = some e := by
  let zeros := List.replicate (2 - (Nat.toDigits 10 e.natAbs).length) '0'
  have hpart : Decimal.exponentPart e = 'e' :: (if decide (e < 0) then '-' else '+') ::
      (zeros ++ Nat.toDigits 10 e.natAbs) := by
    simp only [Decimal.exponentPart, decide_eq_true_eq, zeros]
  have hne : zeros ++ Nat.toDigits 10 e.natAbs ≠ [] :=
    List.append_ne_nil_of_right_ne_nil _ (List.ne_nil_of_length_pos Nat.length_toDigits_pos)
  have hdigit : ∀ c ∈ zeros ++ Nat.toDigits 10 e.natAbs, c.isDigit = true := by
    intro c hc
    rcases List.mem_append.1 hc with hc | hc
    · rw [(List.mem_replicate.1 hc).2]
      rfl
    · exact Nat.isDigit_of_mem_toDigits (by decide) (by decide) hc
  have hvalue : Nat.ofDigitChars 10 (zeros ++ Nat.toDigits 10 e.natAbs) 0 = e.natAbs := by
    rw [Decimal.ofDigitChars_zeros, Nat.ofDigitChars_ten_toDigits]
  rw [hpart, exponent?, if_pos (by decide), signedDigits?_cons _ hne hdigit, hvalue]
  congr 1
  split
  · next hneg => simp only [decide_eq_true_eq] at hneg; omega
  · next hneg => simp only [decide_eq_true_eq] at hneg; omega

variable (d : Decimal)

theorem scientific_eq : d.scientific =
    positional (d.digits.take 1) (d.digits.drop 1) ++ Decimal.exponentPart (d.point - 1) := rfl

theorem decimal?_scientific : decimal? d.scientific = some d := by
  have hlength := d.length_digits_pos
  have hne : d.digits.take 1 ≠ [] := List.ne_nil_of_length_pos (by rw [List.length_take]; omega)
  have hdigit : ∀ c ∈ d.digits.take 1 ++ d.digits.drop 1, c.isDigit = true := by
    rw [List.take_append_drop]
    exact fun c hc => Decimal.isDigit_of_mem_digits hc
  have hexponent : d.point - 1 - (d.digits.drop 1).length = d.exponent := by
    rw [List.length_drop, Decimal.point]
    omega
  rw [scientific_eq, decimal?_positional_append hne hdigit rfl (by simp [Decimal.exponentPart]),
    exponent?_exponentPart, Option.map_some, hexponent, List.take_append_drop, Decimal.of_digits]

theorem decimal?_display : decimal? d.display = some d := by
  unfold Decimal.display
  split
  · exact decimal?_plain d
  · exact decimal?_scientific d

theorem display_eq_cons : ∃ c rest, d.display = c :: rest ∧ c.isDigit = true := by
  unfold Decimal.display
  split
  · exact d.plain_eq_cons
  · obtain ⟨c, rest, hcons⟩ := List.exists_cons_of_ne_nil
      (List.ne_nil_of_length_pos d.length_digits_pos)
    have hscientific : d.scientific = c :: ((if rest.isEmpty then [] else '.' :: rest) ++
        Decimal.exponentPart (d.point - 1)) := by
      rw [scientific_eq, hcons]
      rfl
    exact ⟨c, _, hscientific, Decimal.isDigit_of_mem_digits (hcons ▸ List.mem_cons_self)⟩

variable {d}

/-- In front of a decimal that begins with a digit, a minus sign is the sign. -/
theorem denoted?_signed (negative : Bool) (h : decimal? t = some d)
    (hcons : ∃ c rest, t = c :: rest ∧ c.isDigit = true) :
    denoted? ((if negative then ['-'] else []) ++ t) = some (negative, d) := by
  obtain ⟨c, rest, rfl, hc⟩ := hcons
  cases negative with
  | true => simp [denoted?, splitSign, h]
  | false =>
    have hsplit := splitSign_cons (mem_numeralCharacters (.inl hc)) rest
    simp [denoted?, hsplit, h]

end Numeral
end Calculator
