import Mathlib.Data.List.Perm.Basic
import Calculator.Proofs.Postfix.Conservation
import Calculator.Proofs.Postfix.Nesting

/-!
# What the conversion rearranges

The conversion loses and duplicates nothing. Tokens with matching parentheses come out without the
parentheses and with one zero for every minus that has no left operand; the numbers keep their
order, each such zero standing where its minus stood. Whether a minus has a left operand is read off
the token before it.
-/

namespace Calculator

open scoped List

namespace Token

def isParenthesis (t : Token) : Bool := t.kind == .opening || t.kind == .closing

/-- Each token with the one before it, the first with the given one. -/
def withPrevious (previous : Option Token) (ts : List Token) : List (Option Token × Token) :=
  (previous :: ts.map some).zip ts

/-- A minus sign at the start, or directly behind an operator or an opening parenthesis. -/
def negates (p : Option Token × Token) : Bool :=
  p.2 == operator ['-'] && p.1.all fun t => t.kind == .operator || t.kind == .opening

/-- The numbers among the tokens in order, a zero standing for each negation. -/
def numbersAndZeros (ts : List Token) : List Token :=
  (withPrevious none ts).filterMap fun p =>
    if negates p then some (number ['0']) else if p.2.isNumber then some p.2 else none

theorem withPrevious_cons (previous : Option Token) (t : Token) (ts : List Token) :
    withPrevious previous (t :: ts) = (previous, t) :: withPrevious (some t) ts := rfl

theorem operator_beq (symbol symbol' : Text) :
    (operator symbol == operator symbol') = (symbol == symbol') := by
  rw [Bool.eq_iff_iff]
  simp [operator]

end Token

namespace Postfix

variable {ts listing : List Token}

/-- What a token contributes, given the token before it. -/
def contributionOf (p : Option Token × Token) : List Token :=
  contribution (p.1.map Token.kind) p.2

theorem contributions_eq_flatMap (previous : Option Token) (ts : List Token) :
    contributions (previous.map Token.kind) ts =
      (Token.withPrevious previous ts).flatMap contributionOf := by
  induction ts generalizing previous with
  | nil => rfl
  | cons t ts ih =>
    rw [contributions, Token.withPrevious_cons, List.flatMap_cons, ← ih (some t)]
    rfl

/-- A token contributes itself unless it is a parenthesis, and a negation a zero before it. -/
theorem contributionOf_eq (p : Option Token × Token) :
    contributionOf p = (if Token.negates p then [Token.number ['0']] else []) ++
      if p.2.isParenthesis then [] else [p.2] := by
  obtain ⟨previous, kind, text⟩ := p
  cases kind with
  | number | identifier | opening | closing => rfl
  | operator =>
    have hneg : isNegation (previous.map Token.kind) text =
        Token.negates (previous, Token.operator text) := by
      rw [Token.negates, Token.operator_beq]
      cases previous with
      | none => simp [isNegation]
      | some u => simp [isNegation]
    change contribution _ (Token.operator text) =
      (if Token.negates (previous, Token.operator text) = true then _ else _) ++
        [Token.operator text]
    rw [contribution_operator, hneg]
    split
    · next h =>
      simp only [Token.negates, Bool.and_eq_true, beq_iff_eq] at h
      rw [h.1]
      rfl
    · rfl

theorem filter_isNumber_contributionOf (p : Option Token × Token) :
    (contributionOf p).filter Token.isNumber =
      (if Token.negates p then some (Token.number ['0'])
        else if p.2.isNumber then some p.2 else none).toList := by
  rw [contributionOf_eq]
  obtain ⟨previous, kind, text⟩ := p
  cases kind with
  | number | identifier | opening | closing => rfl
  | operator =>
    -- An operator is no number, so only the zero of a negation is left.
    split <;> rfl

theorem filter_isNumber_contributions (ts : List Token) :
    (contributions none ts).filter Token.isNumber = Token.numbersAndZeros ts := by
  have hcontributions := contributions_eq_flatMap none ts
  rw [Option.map_none] at hcontributions
  rw [hcontributions, List.filter_flatMap, Token.numbersAndZeros,
    List.filterMap_eq_flatMap_toList]
  congr 1
  funext p
  exact filter_isNumber_contributionOf p

theorem flatMap_ite_eq_replicate {α β : Type} (q : α → Bool) (b : β) (l : List α) :
    (l.flatMap fun a => if q a then [b] else []) = List.replicate (l.countP q) b := by
  induction l with
  | nil => rfl
  | cons a l ih =>
    rw [List.flatMap_cons, ih, List.countP_cons]
    split
    · rw [List.replicate_succ]
      rfl
    · rfl

theorem flatMap_withPrevious (ts : List Token) (previous : Option Token) :
    ((Token.withPrevious previous ts).flatMap fun p => if p.2.isParenthesis then [] else [p.2]) =
      ts.filter fun t => !t.isParenthesis := by
  induction ts generalizing previous with
  | nil => rfl
  | cons t ts ih =>
    rw [Token.withPrevious_cons, List.flatMap_cons, ih, List.filter_cons]
    cases t.isParenthesis <;> rfl

theorem perm_contributions (ts : List Token) :
    contributions none ts ~ (ts.filter fun t => !t.isParenthesis) ++
      List.replicate ((Token.withPrevious none ts).countP Token.negates) (Token.number ['0']) := by
  have hcontributions := contributions_eq_flatMap none ts
  rw [Option.map_none] at hcontributions
  calc
    contributions none ts
      = (Token.withPrevious none ts).flatMap fun p =>
          (if Token.negates p then [Token.number ['0']] else []) ++
            if p.2.isParenthesis then [] else [p.2] := by
        rw [hcontributions]
        congr 1
        funext p
        exact contributionOf_eq p
    _ ~ ((Token.withPrevious none ts).flatMap fun p =>
          if Token.negates p then [Token.number ['0']] else []) ++
        (Token.withPrevious none ts).flatMap fun p =>
          if p.2.isParenthesis then [] else [p.2] :=
      (List.flatMap_append_perm _ _ _).symm
    _ ~ _ := by
      rw [flatMap_ite_eq_replicate, flatMap_withPrevious]
      exact List.perm_append_comm

/-- Exactly balanced tokens are converted. The result holds no parenthesis; it is an order of the
other tokens and of one zero for each negation; and its numbers are those of the tokens in their
order, a zero standing in the place of each negation. -/
theorem ofInfix?_rearranges (ts : List Token) :
    (ofInfix? ts = none ↔ ¬ Matched ts) ∧
      ∀ listing, ofInfix? ts = some listing →
        (∀ t ∈ listing, t.isParenthesis = false) ∧
        listing ~ (ts.filter fun t => !t.isParenthesis) ++
          List.replicate ((Token.withPrevious none ts).countP Token.negates)
            (Token.number ['0']) ∧
        listing.filter Token.isNumber = Token.numbersAndZeros ts := by
  constructor
  · rw [← isSome_ofInfix?_iff, Option.not_isSome_iff_eq_none]
  · intro listing h
    have hperm := (perm_ofInfix? h).trans (perm_contributions ts)
    refine ⟨fun t ht => ?_, hperm, ?_⟩
    · rcases List.mem_append.1 (hperm.mem_iff.1 ht) with hfilter | hzero
      · simpa using (List.mem_filter.1 hfilter).2
      · rw [(List.mem_replicate.1 hzero).2]
        rfl
    · rw [filter_isNumber_convertFrom h, filter_isNumber_contributions]

/-- Two negations, a name that is not called and a symbol of no operator. -/
theorem ofInfix?_rearranges_two_negations :
    ofInfix? [Token.opening, Token.binary .sub, Token.number ['2'], Token.closing,
        Token.binary .pow, Token.binary .sub, Token.identifier ['f'], Token.operator ['%'],
        Token.number ['3']] =
      some [Token.number ['0'], Token.number ['2'], Token.binary .sub, Token.number ['0'],
        Token.number ['3'], Token.operator ['%'], Token.identifier ['f'], Token.binary .sub,
        Token.binary .pow] ∧
    [Token.number ['0'], Token.number ['2'], Token.binary .sub, Token.number ['0'],
        Token.number ['3'], Token.operator ['%'], Token.identifier ['f'], Token.binary .sub,
        Token.binary .pow].filter Token.isNumber =
      Token.numbersAndZeros [Token.opening, Token.binary .sub, Token.number ['2'], Token.closing,
        Token.binary .pow, Token.binary .sub, Token.identifier ['f'], Token.operator ['%'],
        Token.number ['3']] :=
  ⟨by decide, ((ofInfix?_rearranges _).2 _ (by decide)).2.2⟩

end Postfix
end Calculator
