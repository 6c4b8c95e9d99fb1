import Calculator.Proofs.Number.Written

/-!
# Literals

A literal is a run of digits, of any script, with at most one point before, among or after them.
Reading replaces every digit by the ASCII digit of its value and so has to do with digits and a
point only. Every literal is a number, `exists_double?`.
-/

namespace Calculator

theorem exists_mem_of_inRanges {ranges : List (Nat × Nat)} {n : Nat}
    (h : inRanges ranges n = true) : ∃ r ∈ ranges, r.1 ≤ n ∧ n ≤ r.2 := by
  induction ranges with
  | nil => cases h
  | cons r rest ih =>
    simp only [inRanges, Bool.and_eq_true, Bool.or_eq_true, decide_eq_true_eq] at h
    obtain ⟨hlo, hhi | hrest⟩ := h
    · exact ⟨r, List.mem_cons_self, hlo, hhi⟩
    · obtain ⟨q, hq, hn⟩ := ih hrest
      exact ⟨q, List.mem_cons_of_mem r hq, hn⟩

variable {c : Char}

theorem isSpace_eq_false_of_isDigit (h : isDigit c = true) : isSpace c = false := by
  have hdisjoint : ∀ r ∈ digitRanges, ∀ q ∈ spaceRanges, r.2 < q.1 ∨ q.2 < r.1 := by
    decide +kernel
  rw [← Bool.not_eq_true]
  intro hspace
  obtain ⟨r, hr, hrlo, hrhi⟩ := exists_mem_of_inRanges h
  obtain ⟨q, hq, hqlo, hqhi⟩ := exists_mem_of_inRanges hspace
  have := hdisjoint r hr q hq
  omega

/-- The digits of ASCII are the first range of digits. -/
theorem char_isDigit_of_isDigit (h : isDigit c = true) (hascii : c.toNat < 0x80) :
    c.isDigit = true := by
  obtain ⟨r, hr, hlo, hhi⟩ := exists_mem_of_inRanges h
  have hfirst : ∀ r ∈ digitRanges, r.1 < 0x80 → r = (0x30, 0x39) := by decide +kernel
  obtain rfl := hfirst r hr (by omega)
  exact Char.isDigit_iff_toNat.2 ⟨hlo, hhi⟩

namespace Numeral

/-- A literal without or with a point. -/
inductive Literal : Text → Prop
  | whole {digits : Text} (hne : digits ≠ []) (h : ∀ c ∈ digits, isDigit c = true) :
    Literal digits
  | pointed {before after : Text} (hne : before ++ after ≠ [])
    (h : ∀ c ∈ before ++ after, isDigit c = true) : Literal (before ++ '.' :: after)

variable {t : Text} {c : Char}

theorem Literal.ne_nil (h : Literal t) : t ≠ [] := by
  cases h with
  | whole hne _ => exact hne
  | pointed => exact List.append_ne_nil_of_right_ne_nil _ (List.cons_ne_nil _ _)

theorem Literal.digit (h : isDigit c = true) : Literal [c] :=
  .whole (List.cons_ne_nil c []) (List.forall_mem_singleton.2 h)

theorem Literal.mem (h : Literal t) (hc : c ∈ t) : isDigit c = true ∨ c = '.' := by
  cases h with
  | whole _ hdigit => exact .inl (hdigit c hc)
  | pointed _ hdigit =>
    rcases List.mem_append.1 hc with hc | hc
    · exact .inl (hdigit c (List.mem_append_left _ hc))
    · rcases List.mem_cons.1 hc with hc | hc
      · exact .inr hc
      · exact .inl (hdigit c (List.mem_append_right _ hc))

theorem isDigit_asciiForm (h : isDigit c = true) : (asciiForm c).isDigit = true := by
  unfold asciiForm
  by_cases hascii : c.toNat < 0x80
  · rw [if_pos hascii]
    exact char_isDigit_of_isDigit h hascii
  · rw [if_neg hascii, isSpace_eq_false_of_isDigit h, if_neg Bool.false_ne_true]
    obtain ⟨d, hd⟩ := Option.isSome_iff_exists.1 ((isSome_digitValue? c).trans h)
    have hdigit : ∀ d < 10, (Nat.digitChar d).isDigit = true := by decide
    rw [hd]
    exact hdigit d (digitValueIn_lt_ten hd)

theorem isDigit_of_mem_map_asciiForm (h : ∀ c ∈ t, isDigit c = true) :
    ∀ c ∈ t.map asciiForm, c.isDigit = true := by
  intro c hc
  obtain ⟨d, hd, rfl⟩ := List.mem_map.1 hc
  exact isDigit_asciiForm (h d hd)

theorem Literal.mem_numeralCharacters_of_mem_map (h : Literal t) :
    ∀ c ∈ t.map asciiForm, c ∈ numeralCharacters := by
  intro c hc
  obtain ⟨d, hd, rfl⟩ := List.mem_map.1 hc
  apply mem_numeralCharacters
  rcases h.mem hd with hdigit | rfl
  · exact .inl (isDigit_asciiForm hdigit)
  · exact .inr rfl

theorem Literal.bare_eq (h : Literal t) : bare t = t.map asciiForm := by
  have hspace : ∀ c ∈ numeralCharacters, isAsciiSpace c = false :=
    forall_mem_numeralCharacters (by decide)
  exact Text.trim_eq_self fun c hc => hspace c (h.mem_numeralCharacters_of_mem_map c hc)

theorem Literal.exists_decimal? (h : Literal t) : ∃ d, decimal? (t.map asciiForm) = some d := by
  cases h with
  | whole hne hdigit =>
    exact ⟨_, decimal?_whole (by simpa using hne) (isDigit_of_mem_map_asciiForm hdigit)⟩
  | pointed hne hdigit =>
    have hdigit := isDigit_of_mem_map_asciiForm hdigit
    rw [List.map_append] at hdigit
    rw [List.map_append, List.map_cons]
    exact ⟨_, decimal?_pointed (by simpa using hne) hdigit⟩

/-- Every literal is read as a number. -/
theorem Literal.exists_double? (h : Literal t) : ∃ x, double? t = some x := by
  obtain ⟨d, hd⟩ := h.exists_decimal?
  rw [double?_of_bare, h.bare_eq, hd]
  · exact ⟨d.toFloat, rfl⟩
  · rw [h.bare_eq]
    simpa using h.ne_nil
  · rw [h.bare_eq]
    exact h.mem_numeralCharacters_of_mem_map

end Numeral
end Calculator
