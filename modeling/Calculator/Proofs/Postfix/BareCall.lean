import Mathlib.Data.List.Basic
import Calculator.Proofs.Postfix.Expression
import Calculator.Proofs.Postfix.Group

/-!
# Names without parentheses

A waiting name is a barrier: no operator releases it, so an expression behind it is read above it as
behind an open parenthesis, and whatever waits below stays there. At the end of the group, or of the
input, everything above the nearest open parenthesis passes, the name last. So a name without
parentheses applies to all that follows in its group, `ofInfix?_bareCall`. The expression must not
begin with a parenthesis, which would be the name's own, nor with a minus, which would be taken for
a subtraction.
-/

namespace Calculator.Postfix

variable {stack above : List Pending} {previous : Option Kind} {name : Text} {post : List Token}

/-- An expression that begins with neither a parenthesis nor a minus is read from any stack that
holds back all operators, whatever the token before it. -/
theorem readsFrom_tokens {l : Level} (d : Derivation l)
    (hfirst : ∀ t ∈ d.tokens.head?, t ≠ Token.opening ∧ t ≠ Token.binary .sub)
    (hstack : ∀ op : BinaryOperator, ∀ top ∈ stack.head?, top.givesWay (.binary op) = false) :
    ReadsFrom stack previous l.strength d.tokens d.postorder := by
  -- Only the leftmost operand is read from this stack; the others are read above an operator.
  induction d with
  | number text => exact .number text
  | call name argument => exact .call name (readsAs_tokens argument)
  | group inner => exact absurd rfl (hfirst _ rfl).1
  | single a ih => exact (ih hfirst).mono (by decide)
  | power base exponent ih =>
    have hbase := ih fun t ht => hfirst t (List.mem_head?_append_of_mem_head? ht)
    exact .binary rfl (.inl (by decide)) (.inr ⟨rfl, rfl⟩) (hstack _) hbase
      (readsAs_tokens exponent)
  | negation operand => exact absurd rfl (hfirst _ rfl).2
  | reciprocal operand => exact .leading (step_reciprocal _ _) rfl rfl (readsAs_tokens operand)
  | factor f ih => exact (ih hfirst).mono (by decide)
  | product left op hop right ih =>
    have hleft := ih fun t ht => hfirst t (List.mem_head?_append_of_mem_head? ht)
    rcases hop with rfl | rfl <;>
      exact .binary rfl (.inr ⟨Nat.le_refl _, rfl⟩) (.inl (by decide)) (hstack _) hleft
        (readsAs_tokens right)
  | term t ih => exact (ih hfirst).mono (by decide)
  | sum left op hop right ih =>
    have hleft := ih fun t ht => hfirst t (List.mem_head?_append_of_mem_head? ht)
    rcases hop with rfl | rfl <;>
      exact .binary rfl (.inr ⟨Nat.le_refl _, rfl⟩) (.inl (by decide)) (hstack _) hleft
        (readsAs_tokens right)

theorem finish_append (h : .opening ∉ above) (stack : List Pending) :
    finish (above ++ stack) = (finish stack).map (release above ++ ·) := by
  by_cases ho : Pending.opening ∈ stack
  · rw [finish, finish, if_pos ho, if_pos (List.mem_append_right above ho), Option.map_none]
  · have happend : Pending.opening ∉ above ++ stack := fun hm =>
      (List.mem_append.1 hm).elim h ho
    rw [finish, finish, if_neg ho, if_neg happend, release_append, Option.map_some]

theorem stepClosing_append_stack (h : .opening ∉ above) (stack : List Pending) :
    stepClosing (above ++ stack) =
      (stepClosing stack).map fun (passed, left) => (release above ++ passed, left) := by
  by_cases ho : Pending.opening ∈ stack
  · obtain ⟨inner, outer, rfl, hinner⟩ := List.eq_append_cons_of_mem ho
    have happend : Pending.opening ∉ above ++ inner := fun hm =>
      (List.mem_append.1 hm).elim h hinner
    rw [← List.append_assoc, stepClosing_append happend, stepClosing_append hinner,
      release_append, List.append_assoc, Option.map_some]
  · have happend : Pending.opening ∉ above ++ stack := fun hm =>
      (List.mem_append.1 hm).elim h ho
    rw [stepClosing_eq_none ho, stepClosing_eq_none happend, Option.map_none]

/-- Where a group or the input ends, all that waits above the nearest open parenthesis passes. -/
theorem convertFrom_of_head?_closing (hpost : ∀ t ∈ post.head?, t.kind = .closing)
    (h : .opening ∉ above) (stack : List Pending) (previous previous' : Option Kind) :
    convertFrom (above ++ stack) previous post =
      (convertFrom stack previous' post).map (release above ++ ·) := by
  cases post with
  | nil => exact finish_append h stack
  | cons t post =>
    have hstep (stack : List Pending) (previous : Option Kind) :
        step stack previous t = stepClosing stack := by rw [step, hpost t rfl]
    rw [convertFrom, convertFrom, hstep, hstep, stepClosing_append_stack h, Option.bind_map,
      Option.map_bind]
    congr 1
    funext passed
    simp [Function.comp_def]

theorem convertFrom_identifier (stack : List Pending) (previous : Option Kind) (name : Text)
    (ts : List Token) :
    convertFrom stack previous (Token.identifier name :: ts) =
      convertFrom (.call name :: stack) (some .identifier) ts := by
  change (convertFrom (.call name :: stack) (some .identifier) ts).map ([] ++ ·) = _
  exact Option.map_id'

/-- With or without parentheses the expression passes as a whole, and then the name. -/
theorem convertFrom_bareCall (d : Derivation .expression)
    (hfirst : ∀ t ∈ d.tokens.head?, t ≠ Token.opening ∧ t ≠ Token.binary .sub)
    (hpost : ∀ t ∈ post.head?, t.kind = .closing) (stack : List Pending)
    (previous : Option Kind) (name : Text) :
    convertFrom stack previous (Token.identifier name :: (d.tokens ++ post)) =
      convertFrom stack previous
        (Token.identifier name :: Token.opening :: (d.tokens ++ Token.closing :: post)) := by
  have hbarrier : ∀ op : BinaryOperator, ∀ top ∈ (Pending.call name :: stack).head?,
      top.givesWay (.binary op) = false := by
    intro op top htop
    obtain rfl := Option.some.inj htop
    rfl
  obtain ⟨passed, pending, last, hread, -, hbinds, hlisting⟩ :=
    readsFrom_tokens d hfirst hbarrier
  have hopen : Pending.opening ∉ pending ++ [.call name] := by
    intro hm
    rcases List.mem_append.1 hm with hm | hm
    · exact (hbinds _ hm).ne_opening rfl
    · cases List.mem_singleton.1 hm
  have hstack : pending ++ .call name :: stack = (pending ++ [.call name]) ++ stack := by simp
  rw [convertFrom_identifier, convertFrom_identifier, convertFrom_append hread, hstack,
    convertFrom_of_head?_closing hpost hopen stack last (some .closing),
    convertFrom_group (ofInfix?_tokens d), Option.map_map, release_append]
  congr 1
  funext later
  simp [← hlisting, afterClosing, release, Pending.token?]

/-- A name without parentheses applies to the whole expression behind it, up to the end of its
group: the result, or the failure, is that with the expression in parentheses. -/
theorem ofInfix?_bareCall (pre : List Token) (name : Text) (d : Derivation .expression)
    (post : List Token)
    (hfirst : ∀ t ∈ d.tokens.head?, t ≠ Token.opening ∧ t ≠ Token.binary .sub)
    (hpost : ∀ t ∈ post.head?, t.kind = .closing) :
    ofInfix? (pre ++ Token.identifier name :: (d.tokens ++ post)) =
      ofInfix? (pre ++ Token.identifier name :: Token.opening ::
        (d.tokens ++ Token.closing :: post)) := by
  unfold ofInfix?
  cases hread : read [] none pre with
  | none => rw [convertFrom_append_eq_none hread, convertFrom_append_eq_none hread]
  | some r =>
    obtain ⟨passed, stack, last⟩ := r
    rw [convertFrom_append hread, convertFrom_append hread,
      convertFrom_bareCall d hfirst hpost stack last name]

/-- A cosine without parentheses inside a sine without parentheses; its argument begins with a
reciprocal, and the first parenthesis to close is that of the group. -/
theorem ofInfix?_bareCall_cosine :
    ofInfix? [Token.number ['2'], Token.binary .pow, Token.opening, Token.identifier "sin".toList,
        Token.identifier "cos".toList, Token.reciprocal, Token.number ['3'], Token.binary .add,
        Token.number ['4'], Token.closing, Token.binary .mul, Token.number ['6']] =
      ofInfix? [Token.number ['2'], Token.binary .pow, Token.opening,
        Token.identifier "sin".toList, Token.identifier "cos".toList, Token.opening,
        Token.reciprocal, Token.number ['3'], Token.binary .add, Token.number ['4'],
        Token.closing, Token.closing, Token.binary .mul, Token.number ['6']] :=
  ofInfix?_bareCall
    [Token.number ['2'], Token.binary .pow, Token.opening, Token.identifier "sin".toList]
    "cos".toList
    (.sum (.term (.factor (.reciprocal (.single (.number ['3']))))) .add (.inl rfl)
      (.factor (.single (.number ['4']))))
    [Token.closing, Token.binary .mul, Token.number ['6']] (by decide) (by decide)

end Calculator.Postfix
