import Calculator.Number.Notation
import Calculator.Number.Numeral

/-!
# Reading written decimals

A decimal written without an exponent is a run of digits with at most one point inside it, and the
digits on both sides of the point determine it. So it is read as itself, `double?_plain`, through
every stage of reading a numeral.
-/

namespace Calculator

/-- The characters of decimals that are written without an exponent. -/
def numeralCharacters : Text := "0123456789.".toList

theorem mem_numeralCharacters {c : Char} (h : c.isDigit = true ∨ c = '.') :
    c ∈ numeralCharacters := by
  rcases h with h | rfl
  · simp only [Char.isDigit, Bool.and_eq_true, decide_eq_true_eq] at h
    have hlo : 48 ≤ c.toNat := h.1
    have hhi : c.toNat ≤ 57 := h.2
    have hc : c = Char.ofNat c.toNat := (Char.ofNat_toNat c).symm
    have hn : c.toNat - 48 < 10 := by omega
    have hall : ∀ k < 10, Char.ofNat (k + 48) ∈ numeralCharacters := by decide
    have hmem := hall _ hn
    rwa [Nat.sub_add_cancel hlo, ← hc] at hmem
  · decide

theorem forall_mem_numeralCharacters {p : Char → Prop} [DecidablePred p]
    (h : numeralCharacters.all (fun c => decide (p c)) = true) : ∀ c ∈ numeralCharacters, p c :=
  fun c hc => of_decide_eq_true (List.all_eq_true.1 h c hc)

namespace Text

variable {p : Char → Bool} {t : Text}

theorem dropWhile_eq_self (h : ∀ c ∈ t, p c = false) : t.dropWhile p = t := by
  cases t with
  | nil => rfl
  | cons c rest => rw [List.dropWhile_cons_of_neg (by simp [h c List.mem_cons_self])]

theorem trim_eq_self (h : ∀ c ∈ t, p c = false) : trim p t = t := by
  have hreverse : ∀ c ∈ t.reverse, p c = false := fun c hc => h c (List.mem_reverse.1 hc)
  rw [trim, dropWhile_eq_self h, dropWhile_eq_self hreverse, List.reverse_reverse]

end Text

/-- Digits, and a point with more digits if there are any. -/
def positional (whole fraction : Text) : Text :=
  whole ++ if fraction.isEmpty then [] else '.' :: fraction

namespace Decimal

theorem isDigit_of_mem_digits {d : Decimal} {c : Char} (h : c ∈ d.digits) : c.isDigit = true :=
  Nat.isDigit_of_mem_toDigits (by decide) (by decide) h

theorem ofDigitChars_zeros (n : Nat) (t : Text) :
    Nat.ofDigitChars 10 (List.replicate n '0' ++ t) 0 = Nat.ofDigitChars 10 t 0 := by
  rw [Nat.ofDigitChars_append, Nat.ofDigitChars_replicate_zero, Nat.mul_zero]

theorem ofDigitChars_append_zeros (t : Text) (n : Nat) :
    Nat.ofDigitChars 10 (t ++ List.replicate n '0') 0 = Nat.ofDigitChars 10 t 0 * 10 ^ n := by
  rw [Nat.ofDigitChars_append, Nat.ofDigitChars_replicate_zero, Nat.mul_comm]

theorem of_digits (d : Decimal) : of (Nat.ofDigitChars 10 d.digits 0) d.exponent = d := by
  rw [digits, Nat.ofDigitChars_ten_toDigits, of_coefficient_exponent]

theorem isDigit_of_mem_padded {d : Decimal} {n : Nat} {c : Char}
    (h : c ∈ d.digits ++ List.replicate n '0') : c.isDigit = true := by
  rcases List.mem_append.1 h with hc | hc
  · exact isDigit_of_mem_digits hc
  · rw [(List.mem_replicate.1 hc).2]
    rfl

/-- Zeros after the point change nothing. -/
theorem of_padded {d : Decimal} (h : 0 ≤ d.exponent) (k : Nat) :
    of (Nat.ofDigitChars 10
      (d.digits ++ List.replicate d.exponent.toNat '0' ++ List.replicate k '0') 0) (-k) = d := by
  have hexp : -(k : Int) + k + d.exponent.toNat = d.exponent := by omega
  rw [ofDigitChars_append_zeros, ofDigitChars_append_zeros, of_mul_pow, of_mul_pow, hexp,
    of_digits]

/-- What a decimal written without an exponent consists of. -/
structure Positional (d : Decimal) (whole fraction : Text) : Prop where
  plain_eq : d.plain = positional whole fraction
  whole_ne_nil : whole ≠ []
  isDigit : ∀ c ∈ whole ++ fraction, c.isDigit = true
  value_eq : of (Nat.ofDigitChars 10 (whole ++ fraction) 0) (-fraction.length) = d

variable {d : Decimal}

theorem length_digits_pos (d : Decimal) : 0 < d.digits.length := Nat.length_toDigits_pos

theorem positional_of_point_nonpos (h : d.point ≤ 0) :
    d.Positional ['0'] (List.replicate (-d.point).toNat '0' ++ d.digits) := by
  have hlen := d.length_digits_pos
  have hpoint : d.point = d.digits.length + d.exponent := rfl
  refine ⟨?_, by simp, ?_, ?_⟩
  · have hne : (List.replicate (-d.point).toNat '0' ++ d.digits).isEmpty = false := by
      rw [List.isEmpty_eq_false_iff_exists_mem]
      obtain ⟨c, hc⟩ := List.exists_mem_of_length_pos hlen
      exact ⟨c, List.mem_append_right _ hc⟩
    rw [plain, placePoint, if_pos h, if_neg (by omega), List.append_nil, positional, hne]
    rfl
  · intro c hc
    rw [← List.append_assoc, List.mem_append, List.mem_append, List.mem_replicate] at hc
    rcases hc with (hc | ⟨-, rfl⟩) | hc
    · rw [List.mem_singleton.1 hc]
      rfl
    · rfl
    · exact isDigit_of_mem_digits hc
  · have hzeros : ['0'] ++ (List.replicate (-d.point).toNat '0' ++ d.digits) =
        List.replicate ((-d.point).toNat + 1) '0' ++ d.digits := by
      rw [List.replicate_succ]
      rfl
    have hexp : -((List.replicate (-d.point).toNat '0' ++ d.digits).length : Int) = d.exponent := by
      rw [List.length_append, List.length_replicate]
      omega
    rw [hzeros, ofDigitChars_zeros, hexp, of_digits]

theorem positional_of_point_lt (h : 0 < d.point) (hlt : d.point.toNat < d.digits.length) :
    d.Positional (d.digits.take d.point.toNat) (d.digits.drop d.point.toNat) := by
  have hpoint : d.point = d.digits.length + d.exponent := rfl
  refine ⟨?_, ?_, ?_, ?_⟩
  · have hne : (d.digits.drop d.point.toNat).isEmpty = false := by
      rw [List.isEmpty_eq_false_iff_exists_mem]
      exact List.exists_mem_of_length_pos (by rw [List.length_drop]; omega)
    rw [plain, placePoint, if_neg (by omega), if_pos hlt, if_neg (by omega), List.append_nil,
      positional, hne]
    rfl
  · intro hnil
    have hlen := congrArg List.length hnil
    rw [List.length_take, List.length_nil] at hlen
    omega
  · rw [List.take_append_drop]
    exact fun c hc => isDigit_of_mem_digits hc
  · have hexp : -((d.digits.drop d.point.toNat).length : Int) = d.exponent := by
      rw [List.length_drop]
      omega
    rw [List.take_append_drop, hexp, of_digits]

theorem positional_of_le_point (h : 0 < d.point) (hle : d.digits.length ≤ d.point.toNat) :
    d.Positional (d.digits ++ List.replicate d.exponent.toNat '0')
      (if d.point ≤ 16 then ['0'] else []) := by
  have hpoint : d.point = d.digits.length + d.exponent := rfl
  have hexp : 0 ≤ d.exponent := by omega
  have hzeros : d.point.toNat - d.digits.length = d.exponent.toNat := by omega
  have hwhole : placePoint d.digits d.point =
      d.digits ++ List.replicate d.exponent.toNat '0' := by
    rw [placePoint, if_neg (by omega), if_neg (by omega), hzeros]
  refine ⟨?_, ?_, ?_, ?_⟩
  · rw [plain, hwhole, positional]
    by_cases hsmall : d.point ≤ 16
    · rw [if_pos ⟨hexp, hsmall⟩, if_pos hsmall]
      rfl
    · rw [if_neg fun hs => hsmall hs.2, if_neg hsmall]
      rfl
  · exact List.append_ne_nil_of_left_ne_nil (List.ne_nil_of_length_pos d.length_digits_pos) _
  · intro c hc
    rcases List.mem_append.1 hc with hc | hc
    · exact isDigit_of_mem_padded hc
    · split at hc
      · rw [List.mem_singleton.1 hc]
        rfl
      · cases hc
  · split
    · exact of_padded hexp 1
    · exact of_padded hexp 0

theorem exists_positional (d : Decimal) : ∃ whole fraction, d.Positional whole fraction := by
  by_cases hpos : d.point ≤ 0
  · exact ⟨_, _, positional_of_point_nonpos hpos⟩
  · by_cases hlt : d.point.toNat < d.digits.length
    · exact ⟨_, _, positional_of_point_lt (by omega) hlt⟩
    · exact ⟨_, _, positional_of_le_point (by omega) (by omega)⟩

variable {whole fraction : Text}

theorem Positional.mem_numeralCharacters (h : d.Positional whole fraction) :
    ∀ c ∈ d.plain, c ∈ numeralCharacters := by
  intro c hc
  rw [h.plain_eq, positional, List.mem_append] at hc
  apply Calculator.mem_numeralCharacters
  rcases hc with hc | hc
  · exact .inl (h.isDigit c (List.mem_append_left _ hc))
  · split at hc
    · cases hc
    · rcases List.mem_cons.1 hc with hc | hc
      · exact .inr hc
      · exact .inl (h.isDigit c (List.mem_append_right _ hc))

theorem mem_numeralCharacters_of_mem_plain {c : Char} (h : c ∈ d.plain) :
    c ∈ numeralCharacters := by
  obtain ⟨whole, fraction, hd⟩ := d.exists_positional
  exact hd.mem_numeralCharacters c h

theorem plain_eq_cons (d : Decimal) : ∃ c rest, d.plain = c :: rest ∧ c.isDigit = true := by
  obtain ⟨whole, fraction, hd⟩ := d.exists_positional
  cases whole with
  | nil => exact absurd rfl hd.whole_ne_nil
  | cons c rest => exact ⟨c, _, hd.plain_eq, hd.isDigit c List.mem_cons_self⟩

theorem plain_ne_nil (d : Decimal) : d.plain ≠ [] := by
  obtain ⟨c, rest, hcons, -⟩ := d.plain_eq_cons
  rw [hcons]
  exact List.cons_ne_nil c rest

end Decimal

namespace Numeral

variable {t whole fraction : Text} {c : Char}

theorem takeWhile_digits (h : ∀ c ∈ whole, c.isDigit = true) (rest : Text)
    (hrest : rest.head?.any Char.isDigit = false) :
    (whole ++ rest).takeWhile Char.isDigit = whole ∧
      (whole ++ rest).dropWhile Char.isDigit = rest := by
  rw [List.takeWhile_append_of_pos h, List.dropWhile_append_of_pos h]
  cases rest with
  | nil => exact ⟨List.append_nil _, rfl⟩
  | cons c rest =>
    have hc : ¬ c.isDigit = true := by simpa using hrest
    rw [List.takeWhile_cons_of_neg hc, List.dropWhile_cons_of_neg hc]
    exact ⟨List.append_nil _, rfl⟩

section Decimal

variable {rest : Text}

theorem decimal?_whole_append (hne : whole ≠ []) (h : ∀ c ∈ whole, c.isDigit = true)
    (hdigit : rest.head?.any Char.isDigit = false) (hpoint : rest.head? ≠ some '.') :
    decimal? (whole ++ rest) =
      (exponent? rest).map fun e => .of (Nat.ofDigitChars 10 whole 0) e := by
  obtain ⟨htake, hdrop⟩ := takeWhile_digits h rest hdigit
  unfold decimal?
  rw [htake, hdrop]
  split
  · next heq =>
    split at heq
    · exact absurd rfl hpoint
    · obtain ⟨rfl, rfl⟩ := Prod.mk.inj heq
      simp [hne]

theorem decimal?_pointed_append (hne : whole ++ fraction ≠ [])
    (h : ∀ c ∈ whole ++ fraction, c.isDigit = true)
    (hdigit : rest.head?.any Char.isDigit = false) :
    decimal? (whole ++ '.' :: (fraction ++ rest)) = (exponent? rest).map fun e =>
      .of (Nat.ofDigitChars 10 (whole ++ fraction) 0) (e - fraction.length) := by
  have hw : ∀ c ∈ whole, c.isDigit = true := fun c hc => h c (List.mem_append_left _ hc)
  have hf : ∀ c ∈ fraction, c.isDigit = true := fun c hc => h c (List.mem_append_right _ hc)
  obtain ⟨htake, hdrop⟩ := takeWhile_digits hw ('.' :: (fraction ++ rest)) rfl
  obtain ⟨htake', hdrop'⟩ := takeWhile_digits hf rest hdigit
  simp only [decimal?, htake, hdrop, htake', hdrop', List.isEmpty_eq_false_iff.2 hne,
    Bool.false_eq_true, if_false]

/-- Digits with a point between them are read up to what is no digit, and then an exponent. -/
theorem decimal?_positional_append (hne : whole ≠ [])
    (h : ∀ c ∈ whole ++ fraction, c.isDigit = true)
    (hdigit : rest.head?.any Char.isDigit = false) (hpoint : rest.head? ≠ some '.') :
    decimal? (positional whole fraction ++ rest) = (exponent? rest).map fun e =>
      .of (Nat.ofDigitChars 10 (whole ++ fraction) 0) (e - fraction.length) := by
  cases fraction with
  | nil =>
    rw [List.append_nil] at h
    rw [positional, List.isEmpty_nil, if_pos rfl, List.append_nil,
      decimal?_whole_append hne h hdigit hpoint]
    simp
  | cons c more =>
    rw [positional, List.isEmpty_cons, if_neg (by decide), List.append_assoc, List.cons_append]
    exact decimal?_pointed_append (List.append_ne_nil_of_left_ne_nil hne _) h hdigit

theorem decimal?_whole (hne : whole ≠ []) (h : ∀ c ∈ whole, c.isDigit = true) :
    decimal? whole = some (.of (Nat.ofDigitChars 10 whole 0) 0) := by
  have hread : decimal? (whole ++ []) = _ := decimal?_whole_append hne h rfl nofun
  rwa [List.append_nil] at hread

theorem decimal?_pointed (hne : whole ++ fraction ≠ [])
    (h : ∀ c ∈ whole ++ fraction, c.isDigit = true) :
    decimal? (whole ++ '.' :: fraction) =
      some (.of (Nat.ofDigitChars 10 (whole ++ fraction) 0) (-fraction.length)) := by
  have hread : decimal? (whole ++ '.' :: (fraction ++ [])) = _ := decimal?_pointed_append hne h rfl
  rw [List.append_nil] at hread
  simpa [exponent?] using hread

theorem decimal?_plain (d : Decimal) : decimal? d.plain = some d := by
  obtain ⟨whole, fraction, hd⟩ := d.exists_positional
  have hread : decimal? (positional whole fraction ++ []) = _ :=
    decimal?_positional_append hd.whole_ne_nil hd.isDigit rfl nofun
  rw [List.append_nil, ← hd.plain_eq] at hread
  rw [hread, exponent?, Option.map_some, Int.zero_sub, hd.value_eq]

end Decimal

theorem bare_eq_self (h : ∀ c ∈ t, c ∈ numeralCharacters) : bare t = t := by
  have hascii : ∀ c ∈ numeralCharacters, asciiForm c = c :=
    forall_mem_numeralCharacters (by decide)
  have hspace : ∀ c ∈ numeralCharacters, isAsciiSpace c = false :=
    forall_mem_numeralCharacters (by decide)
  have hmap : t.map asciiForm = t := by
    rw [List.map_congr_left fun c hc => hascii c (h c hc), List.map_id']
  rw [bare, hmap, Text.trim_eq_self fun c hc => hspace c (h c hc)]

theorem ungroup_eq_self (h : '_' ∉ t) (afterDigit : Bool) : ungroup afterDigit t = some t := by
  induction t generalizing afterDigit with
  | nil => rfl
  | cons c rest ih =>
    have hc : c ≠ '_' := fun hc => h (hc ▸ List.mem_cons_self)
    rw [ungroup, if_neg hc, ih fun hr => h (List.mem_cons_of_mem c hr), Option.map_some]

theorem splitSign_cons (h : c ∈ numeralCharacters) (rest : Text) :
    splitSign (c :: rest) = (false, c :: rest) := by
  have hsign : ∀ c ∈ numeralCharacters, c ≠ '-' ∧ c ≠ '+' :=
    forall_mem_numeralCharacters (by decide)
  obtain ⟨hminus, hplus⟩ := hsign c h
  unfold splitSign
  split
  · next heq => exact absurd (List.cons.inj heq).1 hminus
  · next heq => exact absurd (List.cons.inj heq).1 hplus
  · rfl

theorem magnitude?_cons (h : c ∈ numeralCharacters) (rest : Text) :
    magnitude? (c :: rest) = (decimal? (c :: rest)).map Decimal.toFloat := by
  have hlower : ∀ c ∈ numeralCharacters, c.toLower ≠ 'i' ∧ c.toLower ≠ 'n' :=
    forall_mem_numeralCharacters (by decide)
  obtain ⟨hi, hn⟩ := hlower c h
  have hinf : ¬ ((c :: rest).map Char.toLower = "inf".toList ∨
      (c :: rest).map Char.toLower = "infinity".toList) := by
    rintro (heq | heq) <;> exact hi (List.cons.inj heq).1
  have hnan : ¬ (c :: rest).map Char.toLower = "nan".toList := fun heq =>
    hn (List.cons.inj heq).1
  simp only [magnitude?, if_neg hinf, if_neg hnan]

/-- A numeral of digits and points has no sign, no exponent and no name. -/
theorem double?_of_bare (hne : bare t ≠ []) (ht : ∀ c ∈ bare t, c ∈ numeralCharacters) :
    double? t = (decimal? (bare t)).map Decimal.toFloat := by
  have hunderscore : '_' ∉ bare t := fun h => absurd (ht _ h) (by decide)
  rw [double?, ungroup_eq_self hunderscore, Option.bind_some]
  cases hcons : bare t with
  | nil => exact absurd hcons hne
  | cons c rest =>
    have hc : c ∈ numeralCharacters := ht c (by rw [hcons]; exact List.mem_cons_self)
    rw [splitSign_cons hc]
    dsimp only
    rw [magnitude?_cons hc]
    exact Option.map_id'

/-- A decimal that is written without an exponent is read as the double nearest to it. -/
theorem double?_plain (d : Decimal) : double? d.plain = some d.toFloat := by
  obtain ⟨whole, fraction, hd⟩ := d.exists_positional
  have hbare := bare_eq_self hd.mem_numeralCharacters
  rw [double?_of_bare (by rw [hbare]; exact d.plain_ne_nil)
    (by rw [hbare]; exact hd.mem_numeralCharacters), hbare, decimal?_plain]
  rfl

end Numeral
end Calculator
