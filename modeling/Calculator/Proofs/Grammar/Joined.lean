import Calculator.Proofs.Expression.Decimal
import Calculator.Proofs.Number.Literal
import Calculator.Proofs.Token.Shape

/-!
# Trees with their reciprocals joined

Joining every number `1` with the division sign after it changes the tree that derives the tokens:
the dividend loses the `1` at its end, and in its place comes the reciprocal of the divisor.
`Derivation.joined` is that tree, `tokens_joined`. Where the `1` is the whole dividend the value
stays; elsewhere the `1` is the right operand of a product, a quotient or a power.
-/

namespace Calculator

namespace Token

variable {ts us : List Token} {t : Token}

/-- The tokens with a reciprocal in the place of the number `1` at their end. -/
def replaceLastOne (ts us : List Token) : Option (List Token) :=
  if ts.getLast? = some one then some (ts.dropLast ++ reciprocal :: us) else none

theorem replaceLastOne_cons (h : t ≠ one ∨ ts ≠ []) (us : List Token) :
    replaceLastOne (t :: ts) us = (replaceLastOne ts us).map (t :: ·) := by
  cases ts with
  | nil =>
    have ht : t ≠ one := h.resolve_right fun hnil => hnil rfl
    simp [replaceLastOne, ht]
  | cons x rest =>
    unfold replaceLastOne
    rw [List.getLast?_cons_cons]
    by_cases hlast : (x :: rest).getLast? = some one
    · rw [if_pos hlast, if_pos hlast]
      rfl
    · rw [if_neg hlast, if_neg hlast]
      rfl

theorem replaceLastOne_append (hts : ts ≠ []) (pre us : List Token) :
    replaceLastOne (pre ++ ts) us = (replaceLastOne ts us).map (pre ++ ·) := by
  induction pre with
  | nil => exact Option.map_id'.symm
  | cons t pre ih =>
    have hne : pre ++ ts ≠ [] := List.append_ne_nil_of_right_ne_nil pre hts
    rw [List.cons_append, replaceLastOne_cons (.inr hne), ih, Option.map_map]
    rfl

theorem joinReciprocals_ne_nil (hts : ts ≠ []) : joinReciprocals ts ≠ [] := by
  fun_cases joinReciprocals ts with
  | case1 x y rest h => exact List.cons_ne_nil _ _
  | case2 x y rest h => exact List.cons_ne_nil _ _
  | case3 ts h => exact hts

/-- A division sign is joined with the number `1` before it, if that is still there. -/
theorem joinReciprocals_append_slash (ts us : List Token) :
    joinReciprocals (ts ++ slash :: us) =
      (replaceLastOne (joinReciprocals ts) (joinReciprocals us)).getD
        (joinReciprocals ts ++ slash :: joinReciprocals us) := by
  have hslash := joinReciprocals_cons (t := slash) (by decide) us
  -- A token in front of the tokens whose last one is looked at stays in front.
  have hcons {x : Token} {rest joined : List Token} (hx : x ≠ one ∨ joined ≠ [])
      (h : joinReciprocals (rest ++ slash :: us) =
        (replaceLastOne joined (joinReciprocals us)).getD
          (joined ++ slash :: joinReciprocals us)) :
      x :: joinReciprocals (rest ++ slash :: us) =
        (replaceLastOne (x :: joined) (joinReciprocals us)).getD
          (x :: joined ++ slash :: joinReciprocals us) := by
    rw [h, replaceLastOne_cons hx]
    cases replaceLastOne joined (joinReciprocals us) <;> rfl
  fun_induction joinReciprocals ts with
  | case1 x y rest h ih =>
    rw [List.cons_append, List.cons_append, joinReciprocals, if_pos h]
    exact hcons (.inl (by decide)) ih
  | case2 x y rest h ih =>
    rw [List.cons_append, List.cons_append, joinReciprocals, if_neg h]
    exact hcons (.inr (joinReciprocals_ne_nil (List.cons_ne_nil y rest))) ih
  | case3 ts h =>
    cases ts with
    | nil => exact hslash
    | cons x rest =>
      cases rest with
      | nil =>
        rw [List.singleton_append, joinReciprocals]
        by_cases hx : x = one
        · subst x
          rfl
        · rw [if_neg fun h => hx h.1, hslash]
          simp [replaceLastOne, hx]
      | cons y rest => exact absurd rfl (h x y rest)

/-- A number `1` at the end of joined tokens was there before. -/
theorem getLast?_of_joinReciprocals (h : (joinReciprocals ts).getLast? = some one) :
    ts.getLast? = some one := by
  have hcons {x : Token} {rest joined : List Token} (ih : joined.getLast? = some one →
      rest.getLast? = some one) (hx : joined = [] → x ≠ one)
      (h : (x :: joined).getLast? = some one) (y : Token) : (y :: rest).getLast? = some one := by
    rw [List.getLast?_cons] at h ⊢
    cases hlast : joined.getLast? with
    | none =>
      rw [hlast] at h
      exact absurd (Option.some.inj h) (hx (List.getLast?_eq_none_iff.1 hlast))
    | some last =>
      rw [hlast] at h
      rw [ih (hlast.trans h)]
      rfl
  fun_induction joinReciprocals ts with
  | case1 x y rest hxy ih =>
    rw [List.getLast?_cons_cons]
    exact hcons ih (fun _ => by decide) h y
  | case2 x y rest hxy ih =>
    have hne := joinReciprocals_ne_nil (List.cons_ne_nil y rest)
    exact hcons ih (fun hnil => absurd hnil hne) h x
  | case3 ts hts => exact h

end Token

namespace Derivation

/-- The tree with the reciprocal of the operand in the place of the number `1` at its end. -/
def absorb (operand : Derivation .factor) : {l : Level} → Derivation l → Option (Derivation l)
  | _, number _ => none
  | _, call _ _ => none
  | _, group _ => none
  | _, single a => if a.tokens = [Token.one] then some (.reciprocal operand) else none
  | _, power base exponent => (absorb operand exponent).map (.power base)
  | _, negation f => (absorb operand f).map .negation
  | _, reciprocal f => (absorb operand f).map .reciprocal
  | _, factor f => (absorb operand f).map .factor
  | _, product left op hop right => (absorb operand right).map (.product left op hop)
  | _, term _ => none
  | _, sum _ _ _ _ => none

/-- The tree with every number `1` joined with the division sign after it. -/
def joined {l : Level} : Derivation l → Derivation l
  | number text => .number text
  | call name argument => .call name argument.joined
  | group inner => .group inner.joined
  | single a => .single a.joined
  | power base exponent => .power base.joined exponent.joined
  | negation operand => .negation operand.joined
  | reciprocal operand => .reciprocal operand.joined
  | factor f => .factor f.joined
  | product left op hop right =>
    let whole := .product left.joined op hop right.joined
    if op = .div then (absorb right.joined left.joined).getD whole else whole
  | term t => .term t.joined
  | sum left op hop right => .sum left.joined op hop right.joined

variable {l : Level}

theorem tokens_ne_nil (d : Derivation l) : d.tokens ≠ [] := by
  induction d with
  | single a ih | factor f ih | term t ih => exact ih
  | number | call | group | negation | reciprocal => exact List.cons_ne_nil _ _
  | power | product | sum => exact List.append_ne_nil_of_right_ne_nil _ (List.cons_ne_nil _ _)

/-- An atom ends in the number `1` only if it is no more than that. -/
theorem getLast?_tokens_ne {a : Derivation .atom} (h : a.tokens ≠ [Token.one]) :
    a.tokens.getLast? ≠ some Token.one := by
  have hclosing (pre : List Token) : (pre ++ [Token.closing]).getLast? ≠ some Token.one := by
    rw [List.getLast?_concat]
    decide
  cases a with
  | number text => exact fun hlast => h (congrArg ([·]) (Option.some.inj hlast))
  | call name argument =>
    rw [tokens, ← List.cons_append, ← List.cons_append]
    exact hclosing _
  | group inner =>
    rw [tokens, ← List.cons_append]
    exact hclosing _

theorem map_tokens_map_absorb {m n : Level} {operand : Derivation .factor} {f : Derivation m}
    {node : Derivation m → Derivation n} (pre : List Token)
    (hnode : ∀ f, (node f).tokens = pre ++ f.tokens)
    (hf : (absorb operand f).map tokens = Token.replaceLastOne f.tokens operand.tokens) :
    ((absorb operand f).map node).map tokens =
      Token.replaceLastOne (node f).tokens operand.tokens := by
  rw [hnode, Token.replaceLastOne_append f.tokens_ne_nil, ← hf, Option.map_map, Option.map_map]
  congr 1
  funext f
  exact hnode f

/-- Absorbing an operand replaces the last token, if that is the number `1`. -/
theorem map_tokens_absorb (operand : Derivation .factor) (d : Derivation l)
    (hl : l = .factor ∨ l = .term) :
    (absorb operand d).map tokens = Token.replaceLastOne d.tokens operand.tokens := by
  induction d with
  | number | call | group | term | sum => simp at hl
  | single a _ =>
    rw [absorb, tokens]
    by_cases h : a.tokens = [Token.one]
    · rw [if_pos h, h]
      rfl
    · rw [if_neg h, Token.replaceLastOne, if_neg (getLast?_tokens_ne h), Option.map_none]
  | power base exponent _ ih =>
    exact map_tokens_map_absorb (base.tokens ++ [Token.binary .pow]) (fun f => by simp [tokens])
      (ih (.inl rfl))
  | negation f ih =>
    exact map_tokens_map_absorb [Token.binary .sub] (fun f => rfl) (ih (.inl rfl))
  | reciprocal f ih =>
    exact map_tokens_map_absorb [Token.reciprocal] (fun f => rfl) (ih (.inl rfl))
  | factor f ih => exact map_tokens_map_absorb [] (fun f => rfl) (ih (.inl rfl))
  | product left op hop right _ ih =>
    exact map_tokens_map_absorb (left.tokens ++ [Token.binary op]) (fun f => by simp [tokens])
      (ih (.inl rfl))

/-- The tree with its reciprocals joined derives the tokens with their reciprocals joined. -/
theorem tokens_joined (d : Derivation l) : d.joined.tokens = Token.joinReciprocals d.tokens := by
  have hbinary {op : BinaryOperator} (hop : op ≠ .div) (ts us : List Token) :
      Token.joinReciprocals (ts ++ Token.binary op :: us) =
        Token.joinReciprocals ts ++ Token.binary op :: Token.joinReciprocals us := by
    refine Token.joinReciprocals_append_cons ?_ ?_ ts us
    · cases op <;> decide
    · cases op with
      | div => exact absurd rfl hop
      | add | sub | mul | pow => decide
  have hclosing (ts : List Token) :
      Token.joinReciprocals (ts ++ [Token.closing]) =
        Token.joinReciprocals ts ++ [Token.closing] :=
    Token.joinReciprocals_append_cons (by decide) (by decide) ts []
  induction d with
  | number text => rfl
  | call name argument ih =>
    have hname : Token.identifier name ≠ Token.one := fun h => by cases congrArg Token.kind h
    rw [joined, tokens, tokens, Token.joinReciprocals_cons hname,
      Token.joinReciprocals_cons (by decide), hclosing, ih]
  | group inner ih =>
    rw [joined, tokens, tokens, Token.joinReciprocals_cons (by decide), hclosing, ih]
  | single a ih | factor f ih | term t ih => exact ih
  | power base exponent ihb ihe => rw [joined, tokens, tokens, ihb, ihe, hbinary (by decide)]
  | negation operand ih =>
    rw [joined, tokens, tokens, Token.joinReciprocals_cons (by decide), ih]
  | reciprocal operand ih =>
    rw [joined, tokens, tokens, Token.joinReciprocals_cons (by decide), ih]
  | product left op hop right ihl ihr =>
    by_cases hdiv : op = .div
    · subst op
      have habsorb := map_tokens_absorb right.joined left.joined (.inr rfl)
      change ((absorb right.joined left.joined).getD
          (.product left.joined .div hop right.joined)).tokens =
        Token.joinReciprocals (left.tokens ++ Token.slash :: right.tokens)
      rw [Token.joinReciprocals_append_slash, ← ihl, ← ihr, ← habsorb]
      cases absorb right.joined left.joined <;> rfl
    · have hjoined : (product left op hop right).joined =
          .product left.joined op hop right.joined := if_neg hdiv
      rw [hjoined, tokens, tokens, ihl, ihr, hbinary hdiv]
  | sum left op hop right ihl ihr =>
    have hdiv : op ≠ .div := by rcases hop with rfl | rfl <;> decide
    rw [joined, tokens, tokens, ihl, ihr, hbinary hdiv]

end Derivation
end Calculator
