import Calculator.Proofs.Postfix.Conservation
import Calculator.Proofs.Token.Canonical

/-!
# Tokens from words

Tokens are printed by their texts alone, with a space between neighbours. Since no token of a text
holds white space, the words can be told apart again, and since letters, digits and signs have
nothing in common, the first character of a word tells what kind of token it was, except for a
parenthesis and for the sign `1/`. Parentheses do not pass the conversion, so its result is
recovered from its words.
-/

namespace Calculator

namespace Text

/-- What stands between spaces, unless it is empty. -/
def words (t : Text) : List Text := (t.splitOn ' ').filter (!·.isEmpty)

theorem spaced_cons_cons (w v : Text) (ws : List Text) :
    spaced (w :: v :: ws) = w ++ ' ' :: spaced (v :: ws) := rfl

variable {c : Char} {ws : List Text}

theorem not_mem_spaced (hc : c ≠ ' ') (h : ∀ w ∈ ws, c ∉ w) : c ∉ spaced ws := by
  induction ws with
  | nil => exact List.not_mem_nil
  | cons w ws ih =>
    obtain ⟨hw, hws⟩ := List.forall_mem_cons.1 h
    cases ws with
    | nil => simpa [spaced] using hw
    | cons v ws =>
      rw [spaced_cons_cons, List.mem_append, List.mem_cons]
      rintro (hmem | rfl | hmem)
      · exact hw hmem
      · exact hc rfl
      · exact ih hws hmem

theorem words_spaced (hne : ∀ w ∈ ws, w ≠ []) (hspace : ∀ w ∈ ws, ' ' ∉ w) :
    words (spaced ws) = ws := by
  by_cases hws : ws = []
  · subst hws
    rfl
  · have hkept : ∀ w ∈ ws, (!w.isEmpty) = true := fun w hw => by simpa using hne w hw
    rw [words, spaced, List.splitOn_intercalate ' ' hspace hws, List.filter_eq_self.2 hkept]

end Text

namespace Token

/-- The token of a word, by its first character: a name has a letter, and a number a digit or a
point, unless the word is the sign of reciprocals. -/
def ofWord (w : Text) : Token :=
  if w.head?.any isLetter then identifier w
  else if w.head?.any (fun c => isDigit c || c == '.') && w != ['1', '/'] then number w
  else operator w

/-- The tokens of the words behind the first tab. -/
def ofPostfixColumn (line : Text) : List Token :=
  (Text.words ((line.dropWhile (· != '\t')).drop 1)).map ofWord

variable {c : Char} {t : Token} {ts tokens ordered : List Token} {constants : Bool} {text : Text}

theorem Spelled.ne_nil (h : t.Spelled) : t.text ≠ [] := by
  cases h with
  | number hne | identifier hne => exact hne
  | operator op =>
    rcases op with op | _
    · cases op <;> decide
    · decide
  | opening | closing => decide

theorem Spelled.forall_isExpressionCharacter (h : t.Spelled) :
    ∀ c ∈ t.text, isExpressionCharacter c = true := by
  cases h with
  | number hne h =>
    intro c hc
    simp only [isExpressionCharacter, Bool.or_eq_true, beq_iff_eq]
    exact .inl (.inl (h c hc))
  | identifier hne h =>
    intro c hc
    simp only [isExpressionCharacter, Bool.or_eq_true]
    exact .inl (.inr (h c hc))
  | operator op =>
    refine List.all_eq_true.1 ?_
    rcases op with op | _
    · cases op <;> decide
    · decide
  | opening | closing => exact List.all_eq_true.1 (by decide)

theorem Spelled.not_mem (h : t.Spelled) (hc : isExpressionCharacter c = false) : c ∉ t.text := by
  intro hmem
  rw [h.forall_isExpressionCharacter c hmem] at hc
  cases hc

theorem spelled_number (hne : text ≠ [])
    (h : text.all (fun c => isDigit c || c == '.') = true) : Spelled (number text) :=
  .number hne fun c hc => by simpa using List.all_eq_true.1 h c hc

/-- The first character of a word tells a name, a number and an operator apart. -/
theorem ofWord_text (h : t.Spelled) (hopening : t.kind ≠ .opening) (hclosing : t.kind ≠ .closing) :
    ofWord t.text = t := by
  cases h with
  | @number text hne h =>
    obtain ⟨c, rest, rfl⟩ := List.exists_cons_of_ne_nil hne
    have hc := h c List.mem_cons_self
    have hletter : isLetter c = false := by
      rcases hc with hdigit | rfl
      · rw [Bool.eq_false_iff]
        intro hletter
        rw [isDigit_eq_false_of_isLetter hletter] at hdigit
        cases hdigit
      · decide
    have hreciprocal : c :: rest ≠ ['1', '/'] := by
      intro heq
      have hslash : isDigit '/' = true ∨ '/' = '.' := h '/' (by rw [heq]; decide)
      exact absurd hslash (by decide)
    simp [ofWord, number, hletter, hc, hreciprocal]
  | @identifier name hne h =>
    obtain ⟨c, rest, rfl⟩ := List.exists_cons_of_ne_nil hne
    simp [ofWord, identifier, h c List.mem_cons_self]
  | operator op =>
    rcases op with op | _
    · cases op <;> decide
    · decide
  | opening => exact absurd rfl hopening
  | closing => exact absurd rfl hclosing

/-- Every token of a text is spelled as one, constants among them. -/
theorem spelled_scan (h : scan constants text = .ok ts) : ∀ t ∈ ts, t.Spelled := by
  obtain ⟨us, hus, rfl⟩ := Outcome.exists_of_map_eq_ok h
  have hspelled := (canonical_joinReciprocals (lexemes_eq_ok_iff.1 hus).1).spelled
  have hconstants : (number Constant.pi).Spelled ∧ (number Constant.e).Spelled :=
    ⟨spelled_number (by decide) (by decide), spelled_number (by decide) (by decide)⟩
  cases constants with
  | false => exact hspelled
  | true =>
    intro t ht
    obtain ⟨u, hu, rfl⟩ := List.mem_map.1 ht
    rw [resolve_eq_ite]
    split
    · exact hconstants.1
    · split
      · exact hconstants.2
      · exact hspelled u hu

end Token

namespace Postfix

open Token

variable {t : Token} {ts tokens ordered : List Token}

theorem spelled_ofInfix? (hts : ∀ t ∈ ts, t.Spelled) (h : ofInfix? ts = some ordered)
    (ht : t ∈ ordered) : t.Spelled := by
  rcases mem_contributions ((perm_ofInfix? h).mem_iff.1 ht) with hmem | rfl | rfl
  · exact hts t hmem
  · exact spelled_number (by decide) (by decide)
  · exact .operator (.binary .sub)

/-- The tokens of a text and, behind a tab, their postfix order: the latter is recovered. -/
theorem ofPostfixColumn_spaced (htokens : ∀ t ∈ tokens, t.Spelled)
    (h : ofInfix? tokens = some ordered) :
    ofPostfixColumn (spaced tokens ++ '\t' :: spaced ordered) = ordered := by
  have hspelled : ∀ t ∈ ordered, t.Spelled := fun t ht => spelled_ofInfix? htokens h ht
  have htab : ∀ c ∈ spaced tokens, (c != '\t') = true := by
    have hmem : '\t' ∉ spaced tokens := by
      refine Text.not_mem_spaced (by decide) fun w hw => ?_
      obtain ⟨t, ht, rfl⟩ := List.mem_map.1 hw
      exact (htokens t ht).not_mem (by decide)
    intro c hc
    exact bne_iff_ne.2 fun heq => hmem (heq ▸ hc)
  have hwords : Text.words (spaced ordered) = ordered.map Token.text := by
    refine Text.words_spaced (fun w hw => ?_) fun w hw => ?_
    · obtain ⟨t, ht, rfl⟩ := List.mem_map.1 hw
      exact (hspelled t ht).ne_nil
    · obtain ⟨t, ht, rfl⟩ := List.mem_map.1 hw
      exact (hspelled t ht).not_mem (by decide)
  have hread : ∀ t ∈ ordered, (ofWord ∘ Token.text) t = id t := by
    intro t ht
    obtain ⟨hopening, hclosing⟩ :=
      kind_ne_of_mem_contributions ((perm_ofInfix? h).mem_iff.1 ht)
    exact ofWord_text (hspelled t ht) hopening hclosing
  rw [ofPostfixColumn, List.dropWhile_append_of_pos htab]
  change (Text.words (spaced ordered)).map ofWord = ordered
  rw [hwords, List.map_map]
  exact (List.map_congr_left hread).trans (List.map_id ordered)

example : ofPostfixColumn "4 / 1/ f ( 2 )\t4 2 f 1/ /".toList =
    [number ['4'], number ['2'], identifier ['f'], reciprocal, slash] := by decide

end Postfix
end Calculator
