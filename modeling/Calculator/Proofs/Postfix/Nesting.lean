import Calculator.Proofs.Balance
import Calculator.Proofs.Postfix.Reading

/-!
# Parentheses in the conversion

The open parentheses on the stack are those that are open in the tokens read so far: each step
changes their number as counting along the tokens does, and fails where that fails. So the
conversion has a result exactly for balanced tokens, `isSome_ofInfix?_iff`.
-/

namespace Calculator.Postfix

/-- The parentheses of tokens match, whatever their texts are. -/
def Matched (ts : List Token) : Prop := Balanced Kind.opening Kind.closing (ts.map Token.kind)

theorem count_opening_dropWhile (op : Operator) (stack : List Pending) :
    (stack.dropWhile (Pending.givesWay op)).count .opening = stack.count .opening := by
  induction stack with
  | nil => rfl
  | cons top stack ih =>
    cases h : top.givesWay op with
    | false => rw [List.dropWhile_cons_of_neg (by simp [h])]
    | true =>
      have hne : top ≠ .opening := by
        rintro rfl
        cases h
      rw [List.dropWhile_cons_of_pos h, ih, List.count_cons_of_ne hne]

theorem count_opening_stepOperator (stack : List Pending) (previous : Option Kind)
    (symbol : Text) :
    (stepOperator stack previous symbol).2.count .opening = stack.count .opening := by
  unfold stepOperator
  split
  · exact List.count_cons_of_ne (by simp)
  · split
    · rw [List.count_cons_of_ne (by simp), count_opening_dropWhile]
    · exact List.count_cons_of_ne (by simp)

theorem count_opening_afterClosing (stack : List Pending) :
    (afterClosing stack).2.count .opening = stack.count .opening := by
  cases stack with
  | nil => rfl
  | cons top outer =>
    cases top with
    | call name => exact (List.count_cons_of_ne (by simp)).symm
    | opening | operator | negation => rfl

theorem count_opening_stepClosing (stack : List Pending) :
    (stepClosing stack).map (fun r => r.2.count .opening) =
      openStep Kind.opening Kind.closing (stack.count .opening) .closing := by
  by_cases ho : Pending.opening ∈ stack
  · obtain ⟨inner, outer, rfl, hinner⟩ := List.eq_append_cons_of_mem ho
    rw [stepClosing_append hinner, Option.map_some, count_opening_afterClosing, List.count_append,
      List.count_eq_zero.2 hinner, List.count_cons_self]
    simp [openStep]
  · rw [stepClosing_eq_none ho, List.count_eq_zero.2 ho]
    rfl

/-- A token opens and closes on the stack what it opens and closes in the text. -/
theorem count_opening_step (stack : List Pending) (previous : Option Kind) (t : Token) :
    (step stack previous t).map (fun r => r.2.count .opening) =
      openStep Kind.opening Kind.closing (stack.count .opening) t.kind := by
  unfold step
  cases t.kind with
  | number => rfl
  | identifier => exact congrArg some (List.count_cons_of_ne (by simp))
  | operator => exact congrArg some (count_opening_stepOperator stack previous t.text)
  | opening => exact congrArg some List.count_cons_self
  | closing => exact count_opening_stepClosing stack

theorem count_opening_read (stack : List Pending) (previous : Option Kind) (ts : List Token) :
    (read stack previous ts).map (fun r => r.2.1.count .opening) =
      openAfter Kind.opening Kind.closing (stack.count .opening) (ts.map Token.kind) := by
  induction ts generalizing stack previous with
  | nil => rfl
  | cons t ts ih =>
    rw [List.map_cons, openAfter_cons, ← count_opening_step stack previous t, read]
    cases step stack previous t with
    | none => rfl
    | some r =>
      obtain ⟨passed, stack'⟩ := r
      rw [Option.map_some, Option.bind_some, Option.bind_some, ← ih stack' (some t.kind),
        Option.map_map]
      rfl

/-- Exactly balanced tokens can be put into postfix order. -/
theorem isSome_ofInfix?_iff (ts : List Token) : (ofInfix? ts).isSome ↔ Matched ts := by
  have hcount := count_opening_read [] none ts
  rw [Matched, balanced_iff (by decide), ofInfix?, convertFrom_eq_read]
  change _ ↔ openAfter _ _ (List.count Pending.opening []) _ = _
  rw [← hcount]
  cases read [] none ts with
  | none => simp
  | some r =>
    obtain ⟨passed, left, last⟩ := r
    rw [Option.bind_some, Option.map_some, Option.isSome_map, finish]
    by_cases ho : Pending.opening ∈ left
    · simp [ho, Nat.pos_iff_ne_zero.1 (List.count_pos_iff.2 ho)]
    · simp [ho, List.count_eq_zero.2 ho]

end Calculator.Postfix
