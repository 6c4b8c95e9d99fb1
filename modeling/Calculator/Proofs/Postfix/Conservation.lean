import Calculator.Proofs.Postfix.Reading

/-!
# What the conversion keeps

Tokens are put in another order: parentheses are dropped, a negation becomes a zero and a
subtraction, and every other token passes once. `contributions` lists what passes for the tokens in
their own order; the result of the conversion is a permutation of it, since at each step what has
passed and what waits together grow by the contribution of one token. Numbers never wait, so they
keep their order.
-/

namespace Calculator

def Token.isNumber (t : Token) : Bool := t.kind == .number

namespace Postfix

open scoped List

variable {stack stack' : List Pending} {previous : Option Kind} {t u : Token}
variable {ts passed listing : List Token}

/-- What passes for a token, now or later. -/
def contribution (previous : Option Kind) (t : Token) : List Token :=
  match t.kind with
  | .number | .identifier => [t]
  | .operator =>
    if isNegation previous t.text then [Token.number ['0'], Token.binary .sub] else [t]
  | .opening | .closing => []

theorem contribution_operator (previous : Option Kind) (symbol : Text) :
    contribution previous (Token.operator symbol) =
      if isNegation previous symbol then [Token.number ['0'], Token.binary .sub]
      else [Token.operator symbol] := rfl

def contributions (previous : Option Kind) : List Token → List Token
  | [] => []
  | t :: rest => contribution previous t ++ contributions (some t.kind) rest

/-- What passes for a token is the token, unless it is a parenthesis, or stands for a negation. -/
theorem mem_contribution (h : t ∈ contribution previous u) :
    (t = u ∨ t = Token.number ['0'] ∨ t = Token.binary .sub) ∧
      t.kind ≠ .opening ∧ t.kind ≠ .closing := by
  obtain ⟨kind, text⟩ := u
  cases kind with
  | number | identifier =>
    obtain rfl := List.mem_singleton.1 h
    exact ⟨.inl rfl, Kind.noConfusion, Kind.noConfusion⟩
  | operator =>
    change t ∈ contribution previous (Token.operator text) at h
    rw [contribution_operator] at h
    split at h
    · simp only [List.mem_cons, List.not_mem_nil, or_false] at h
      refine ⟨.inr h, ?_⟩
      rcases h with rfl | rfl <;> exact ⟨Kind.noConfusion, Kind.noConfusion⟩
    · obtain rfl := List.mem_singleton.1 h
      exact ⟨.inl rfl, Kind.noConfusion, Kind.noConfusion⟩
  | opening | closing => cases h

theorem exists_of_mem_contributions (h : t ∈ contributions previous ts) :
    ∃ u ∈ ts, ∃ kind, t ∈ contribution kind u := by
  induction ts generalizing previous with
  | nil => cases h
  | cons u ts ih =>
    rcases List.mem_append.1 h with h | h
    · exact ⟨u, List.mem_cons_self, previous, h⟩
    · obtain ⟨v, hv, hpasses⟩ := ih h
      exact ⟨v, List.mem_cons_of_mem u hv, hpasses⟩

theorem mem_contributions (h : t ∈ contributions previous ts) :
    t ∈ ts ∨ t = Token.number ['0'] ∨ t = Token.binary .sub := by
  obtain ⟨u, hu, kind, hpasses⟩ := exists_of_mem_contributions h
  rcases (mem_contribution hpasses).1 with rfl | hnegation
  · exact .inl hu
  · exact .inr hnegation

theorem kind_ne_of_mem_contributions (h : t ∈ contributions previous ts) :
    t.kind ≠ .opening ∧ t.kind ≠ .closing := by
  obtain ⟨u, hu, kind, hpasses⟩ := exists_of_mem_contributions h
  exact (mem_contribution hpasses).2

theorem perm_stepOperator (stack : List Pending) (previous : Option Kind) (symbol : Text) :
    (stepOperator stack previous symbol).1 ++ release (stepOperator stack previous symbol).2 ~
      contribution previous (Token.operator symbol) ++ release stack := by
  rw [contribution_operator, stepOperator]
  by_cases hneg : isNegation previous symbol = true
  · rw [if_pos hneg, if_pos hneg]
    exact List.Perm.refl _
  · rw [if_neg hneg, if_neg hneg]
    split
    · next op _ =>
      have hsplit : release stack = release (stack.takeWhile (Pending.givesWay (.binary op))) ++
          release (stack.dropWhile (Pending.givesWay (.binary op))) := by
        rw [← release_append, List.takeWhile_append_dropWhile]
      rw [hsplit]
      exact List.perm_middle
    · exact List.Perm.refl _

theorem afterClosing_append_release (stack : List Pending) :
    (afterClosing stack).1 ++ release (afterClosing stack).2 = release stack := by
  cases stack with
  | nil => rfl
  | cons top outer => cases top <;> rfl

theorem append_release_of_stepClosing (h : stepClosing stack = some (passed, stack')) :
    passed ++ release stack' = release stack := by
  by_cases ho : Pending.opening ∈ stack
  · obtain ⟨inner, outer, rfl, hinner⟩ := List.eq_append_cons_of_mem ho
    rw [stepClosing_append hinner, Option.some.injEq, Prod.mk.injEq] at h
    obtain ⟨rfl, rfl⟩ := h
    rw [List.append_assoc, afterClosing_append_release, release_append]
    rfl
  · rw [stepClosing_eq_none ho] at h
    cases h

/-- Together, what passed and what waits grow by the contribution of the token. -/
theorem perm_step (h : step stack previous t = some (passed, stack')) :
    passed ++ release stack' ~ contribution previous t ++ release stack := by
  obtain ⟨kind, text⟩ := t
  cases kind with
  | number | identifier =>
    obtain ⟨rfl, rfl⟩ := Prod.mk.inj (Option.some.inj h)
    exact List.Perm.refl _
  | operator =>
    obtain ⟨rfl, rfl⟩ := Prod.mk.inj (Option.some.inj h)
    exact perm_stepOperator stack previous text
  | opening =>
    obtain ⟨rfl, rfl⟩ := Prod.mk.inj (Option.some.inj h)
    exact List.Perm.refl _
  | closing =>
    change stepClosing stack = _ at h
    rw [append_release_of_stepClosing h]
    exact List.Perm.refl _

theorem perm_convertFrom (h : convertFrom stack previous ts = some listing) :
    listing ~ contributions previous ts ++ release stack := by
  induction ts generalizing stack previous listing with
  | nil =>
    unfold convertFrom finish at h
    split at h
    · cases h
    · obtain rfl := Option.some.inj h
      exact List.Perm.refl _
  | cons t ts ih =>
    rw [convertFrom] at h
    obtain ⟨⟨passed, stack'⟩, hstep, hrest⟩ := Option.bind_eq_some_iff.1 h
    obtain ⟨later, hlater, rfl⟩ := Option.map_eq_some_iff.1 hrest
    calc
      passed ++ later ~ passed ++ (contributions (some t.kind) ts ++ release stack') :=
        (ih hlater).append_left passed
      _ ~ contributions (some t.kind) ts ++ (passed ++ release stack') := by
        rw [← List.append_assoc, ← List.append_assoc]
        exact List.perm_append_comm.append_right _
      _ ~ contributions (some t.kind) ts ++ (contribution previous t ++ release stack) :=
        (perm_step hstep).append_left _
      _ ~ contributions previous (t :: ts) ++ release stack := by
        rw [contributions, ← List.append_assoc]
        exact List.perm_append_comm.append_right _

/-- The postfix order is an order of what the tokens contribute. -/
theorem perm_ofInfix? (h : ofInfix? ts = some listing) : listing ~ contributions none ts := by
  have hperm := perm_convertFrom h
  rwa [show release [] = [] from rfl, List.append_nil] at hperm

theorem filter_isNumber_release (stack : List Pending) :
    (release stack).filter Token.isNumber = [] := by
  refine List.filter_eq_nil_iff.2 fun t ht => ?_
  obtain ⟨entry, -, htoken⟩ := List.mem_filterMap.1 ht
  cases entry with
  | opening => cases htoken
  | call | operator | negation =>
    obtain rfl := Option.some.inj htoken
    exact Bool.false_ne_true

theorem filter_isNumber_stepOperator (stack : List Pending) (previous : Option Kind)
    (symbol : Text) :
    (stepOperator stack previous symbol).1.filter Token.isNumber =
      (contribution previous (Token.operator symbol)).filter Token.isNumber := by
  rw [contribution_operator, stepOperator]
  by_cases hneg : isNegation previous symbol = true
  · rw [if_pos hneg, if_pos hneg]
    rfl
  · rw [if_neg hneg, if_neg hneg]
    split
    · exact filter_isNumber_release _
    · rfl

theorem filter_isNumber_stepClosing (h : stepClosing stack = some (passed, stack')) :
    passed.filter Token.isNumber = [] := by
  refine List.filter_eq_nil_iff.2 fun t ht => ?_
  have hrelease : t ∈ release stack := by
    rw [← append_release_of_stepClosing h]
    exact List.mem_append_left _ ht
  exact List.filter_eq_nil_iff.1 (filter_isNumber_release stack) t hrelease

theorem filter_isNumber_step (h : step stack previous t = some (passed, stack')) :
    passed.filter Token.isNumber = (contribution previous t).filter Token.isNumber := by
  obtain ⟨kind, text⟩ := t
  cases kind with
  | number | identifier | opening =>
    obtain ⟨rfl, rfl⟩ := Prod.mk.inj (Option.some.inj h)
    rfl
  | operator =>
    obtain ⟨rfl, rfl⟩ := Prod.mk.inj (Option.some.inj h)
    exact filter_isNumber_stepOperator stack previous text
  | closing => exact filter_isNumber_stepClosing h

/-- The numbers that pass are those of the contributions, in the same order. -/
theorem filter_isNumber_read {last : Option Kind}
    (h : read stack previous ts = some (passed, stack', last)) :
    passed.filter Token.isNumber = (contributions previous ts).filter Token.isNumber := by
  induction ts generalizing stack previous passed with
  | nil =>
    obtain ⟨rfl, -⟩ := Prod.mk.inj (Option.some.inj h)
    rfl
  | cons t ts ih =>
    rw [read] at h
    obtain ⟨⟨now, next⟩, hstep, hrest⟩ := Option.bind_eq_some_iff.1 h
    obtain ⟨⟨later, left⟩, hlater, heq⟩ := Option.map_eq_some_iff.1 hrest
    obtain ⟨rfl, rfl⟩ := Prod.mk.inj heq
    rw [contributions, List.filter_append, List.filter_append, filter_isNumber_step hstep,
      ih hlater]

theorem filter_isNumber_convertFrom (h : convertFrom stack previous ts = some listing) :
    listing.filter Token.isNumber = (contributions previous ts).filter Token.isNumber := by
  rw [convertFrom_eq_read] at h
  obtain ⟨⟨passed, left, last⟩, hread, hfinish⟩ := Option.bind_eq_some_iff.1 h
  obtain ⟨released, hreleased, rfl⟩ := Option.map_eq_some_iff.1 hfinish
  unfold finish at hreleased
  split at hreleased
  · cases hreleased
  · obtain rfl := Option.some.inj hreleased
    rw [List.filter_append, filter_isNumber_release, List.append_nil, filter_isNumber_read hread]

end Postfix
end Calculator
