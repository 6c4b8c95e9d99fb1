import Calculator.Token.Scan

/-!
# Cutting a text in stretches

A parenthesis is a token of its own whatever stands beside it, and no reciprocal is formed across
it. So the text before a parenthesis and the text after it are cut into tokens independently,
`scan_append_cons`, and a leading `1/` is one token in front of those of the rest.
-/

namespace Calculator

namespace Token

variable {c : Char} {k : Kind}

theorem extend_eq_cons (hk : k.runs = false) (c : Char) (ts : List Token) :
    extend k c ts = ⟨k, [c]⟩ :: ts := by
  cases ts with
  | nil => rfl
  | cons t rest => exact if_neg fun h => by simp [hk] at h

theorem extend_append_cons {t : Token} (ht : t.kind.runs = false) (k : Kind) (c : Char)
    (ts us : List Token) : extend k c (ts ++ t :: us) = extend k c ts ++ t :: us := by
  cases ts with
  | nil =>
    refine if_neg ?_
    rintro ⟨rfl, hruns⟩
    exact absurd hruns (by simp [ht])
  | cons u rest =>
    simp only [List.cons_append, extend]
    split <;> rfl

/-- The text on both sides of a character that stands alone is cut independently. -/
theorem lexemes_append_cons (hc : Kind.ofChar? c = some k) (hk : k.runs = false)
    (before after : Text) :
    lexemes (before ++ c :: after) = (lexemes before).bind fun ts =>
      (lexemes after).map fun us => ts ++ ⟨k, [c]⟩ :: us := by
  induction before with
  | nil =>
    rw [List.nil_append, lexemes, lexemes, hc]
    change (lexemes after).map (extend k c) = (lexemes after).map _
    congr 1
    funext us
    exact extend_eq_cons hk c us
  | cons d before ih =>
    rw [List.cons_append, lexemes, lexemes]
    cases Kind.ofChar? d with
    | none => rfl
    | some kd =>
      dsimp only
      rw [ih]
      cases lexemes before with
      | error fault => rfl
      | ok ts =>
        cases lexemes after with
        | error fault => rfl
        | ok us => exact congrArg Except.ok (extend_append_cons hk kd d ts us)

theorem joinReciprocals_cons {t : Token} (hone : t ≠ one) (us : List Token) :
    joinReciprocals (t :: us) = t :: joinReciprocals us := by
  cases us with
  | nil => rfl
  | cons u rest => rw [joinReciprocals, if_neg fun h => hone h.1]

theorem joinReciprocals_append_cons {t : Token} (hone : t ≠ one) (hslash : t ≠ slash)
    (ts us : List Token) :
    joinReciprocals (ts ++ t :: us) = joinReciprocals ts ++ t :: joinReciprocals us := by
  fun_induction joinReciprocals ts with
  | case1 x y rest h ih =>
    rw [List.cons_append, List.cons_append, joinReciprocals, if_pos h, ih, List.cons_append]
  | case2 x y rest h ih =>
    rw [List.cons_append, List.cons_append, joinReciprocals, if_neg h]
    exact congrArg _ ih
  | case3 ts h =>
    match ts, h with
    | [], _ => exact joinReciprocals_cons hone us
    | [x], _ =>
      rw [List.singleton_append, joinReciprocals, if_neg fun h => hslash h.2,
        joinReciprocals_cons hone]
      rfl
    | x :: y :: rest, h => exact absurd rfl (h x y rest)

theorem scan_append_cons (constants : Bool) (hc : c = '(' ∧ k = .opening ∨ c = ')' ∧ k = .closing)
    (before after : Text) :
    scan constants (before ++ c :: after) = (scan constants before).bind fun ts =>
      (scan constants after).map fun us => ts ++ ⟨k, [c]⟩ :: us := by
  have hkind : Kind.ofChar? c = some k ∧ k.runs = false := by
    rcases hc with ⟨rfl, rfl⟩ | ⟨rfl, rfl⟩ <;> exact ⟨by decide, rfl⟩
  have htoken : (⟨k, [c]⟩ : Token) ≠ one ∧ (⟨k, [c]⟩ : Token) ≠ slash ∧
      resolve ⟨k, [c]⟩ = ⟨k, [c]⟩ := by
    rcases hc with ⟨rfl, rfl⟩ | ⟨rfl, rfl⟩ <;> exact ⟨by decide, by decide, rfl⟩
  simp only [scan, lexemes_append_cons hkind.1 hkind.2]
  cases lexemes before with
  | error fault => rfl
  | ok ts =>
    cases lexemes after with
    | error fault => rfl
    | ok us =>
      simp only [Except.bind, Except.map, joinReciprocals_append_cons htoken.1 htoken.2.1]
      cases constants with
      | false => rfl
      | true =>
        simp only [if_true, List.map_append, List.map_cons, htoken.2.2]

theorem scan_reciprocal (constants : Bool) (rest : Text) :
    scan constants ('1' :: '/' :: rest) = (scan constants rest).map (reciprocal :: ·) := by
  have hdigit : Kind.ofChar? '1' = some .number := by decide
  have hslash : Kind.ofChar? '/' = some .operator := by decide
  have hlexemes : lexemes ('1' :: '/' :: rest) =
      (lexemes rest).map fun ts => one :: slash :: ts := by
    rw [lexemes, lexemes, hdigit, hslash]
    cases lexemes rest with
    | error fault => rfl
    | ok ts =>
      change Except.ok (extend .number '1' (extend .operator '/' ts)) = _
      rw [extend_eq_cons (k := .operator) rfl]
      rfl
  simp only [scan, hlexemes]
  cases lexemes rest with
  | error fault => rfl
  | ok ts =>
    simp only [Except.map, joinReciprocals, and_self, if_true]
    cases constants <;> rfl

end Token

namespace Text

theorem substitutePi_append_cons {c : Char} (hp : c ≠ 'p') (hi : c ≠ 'i') (before after : Text) :
    substitutePi (before ++ c :: after) = substitutePi before ++ c :: substitutePi after := by
  have hcons : substitutePi (c :: after) = c :: substitutePi after := by
    rw [substitutePi]
    rintro rest rfl
    exact absurd rfl hp
  fun_induction substitutePi before with
  | case1 rest ih => simp only [List.cons_append, substitutePi, ih, List.append_assoc]
  | case2 d rest h ih =>
    rw [List.cons_append, substitutePi, ih, List.cons_append]
    rintro more rfl hrest
    cases rest with
    | nil => exact hi (List.cons.inj hrest).1
    | cons x xs =>
      rw [List.cons_append, List.cons.injEq] at hrest
      exact h _ rfl (by rw [hrest.1])
  | case3 => exact hcons

theorem substituteConstants_append_cons {c : Char} (hp : c ≠ 'p') (hi : c ≠ 'i') (he : c ≠ 'e')
    (before after : Text) :
    substituteConstants (before ++ c :: after) =
      substituteConstants before ++ c :: substituteConstants after := by
  simp only [substituteConstants, substituteE, substitutePi_append_cons hp hi, List.flatMap_append,
    List.flatMap_cons, if_neg he, List.singleton_append]

end Text
end Calculator
