import Calculator.Proofs.Postfix.Operand

/-!
# How the arithmetic proceeds

Each token that the arithmetic accepts changes the number of values by what the token itself says,
so tokens with a value gain one value in all, `gains_of_run`. A token that is refused is refused for
one of five reasons, unless it is a sign that no operator has.
-/

namespace Calculator

/-- By how much a token changes the number of values: a number adds one, and a binary operator makes
one of two. -/
def Token.gain (t : Token) : Int :=
  match t.kind with
  | .number => 1
  | .identifier => 0
  | _ => match Operator.ofSymbol? t.text with
    | some (.binary _) => -1
    | _ => 0

def Token.gains : List Token → Int
  | [] => 0
  | t :: ts => t.gain + gains ts

theorem Token.gains_append (ts us : List Token) : gains (ts ++ us) = gains ts + gains us := by
  induction ts with
  | nil => exact (Int.zero_add _).symm
  | cons t ts ih => rw [List.cons_append, gains, gains, ih, Int.add_assoc]

theorem Token.gains_eq_of_perm {ts us : List Token} (h : ts.Perm us) : gains ts = gains us := by
  induction h with
  | nil => rfl
  | cons t _ ih => rw [gains, gains, ih]
  | swap t u ts => rw [gains, gains, gains, gains, Int.add_left_comm]
  | trans _ _ ih₁ ih₂ => exact ih₁.trans ih₂

/-- A number, a name, or the symbol of an operator. -/
def Token.Computable (t : Token) : Prop :=
  t.kind = .number ∨ t.kind = .identifier ∨ (Operator.ofSymbol? t.text).isSome = true

/-- The faults that computing known symbols can have. -/
inductive Fault.OfComputation : Fault → Prop
  | missingOperand (symbol : Text) : OfComputation (.missingOperand symbol)
  | unknownFunction (name : Text) : OfComputation (.unknownFunction name)
  | factorialDomain (argument : Float) : OfComputation (.factorialDomain argument)
  | unreadable (literal : Text) : OfComputation (.unreadable literal)
  | leftover (count : Nat) : OfComputation (.leftover count)

namespace Arithmetic

open Outcome

variable {a : Arithmetic} {stack stack' : List Float} {t : Token} {ts : List Token} {v : Float}
variable {fault : Fault}

theorem length_stepOperator {symbol : Text} {kind : Kind}
    (hkind : kind ≠ .number ∧ kind ≠ .identifier)
    (h : a.stepOperator stack symbol = .ok stack') :
    (stack'.length : Int) = stack.length + Token.gain ⟨kind, symbol⟩ := by
  have hgain : Token.gain ⟨kind, symbol⟩ = match Operator.ofSymbol? symbol with
      | some (.binary _) => -1
      | _ => 0 := by
    cases kind with
    | number => exact absurd rfl hkind.1
    | identifier => exact absurd rfl hkind.2
    | operator | opening | closing => rfl
  rw [hgain]
  unfold stepOperator at h
  cases hop : Operator.ofSymbol? symbol with
  | none => simp [hop] at h
  | some op =>
    cases op with
    | reciprocal =>
      cases stack with
      | nil => simp [hop] at h
      | cons x rest =>
        simp only [hop, Except.ok.injEq] at h
        subst stack'
        exact (Int.add_zero _).symm
    | binary op =>
      match stack, h with
      | [], h => simp [hop] at h
      | [x], h => simp [hop] at h
      | y :: x :: rest, h =>
        simp only [hop, Except.ok.injEq] at h
        subst stack'
        simp only [List.length_cons]
        omega

theorem length_step (h : a.step stack t = .ok stack') :
    (stack'.length : Int) = stack.length + t.gain := by
  obtain ⟨kind, text⟩ := t
  cases kind with
  | number =>
    change stepNumber stack text = _ at h
    unfold stepNumber at h
    split at h
    · cases h
    · cases h
      rfl
  | identifier =>
    change a.stepCall stack text = _ at h
    unfold stepCall at h
    split at h
    · cases h
    · cases h
    · obtain ⟨y, -, rfl⟩ := exists_of_map_eq_ok h
      exact (Int.add_zero _).symm
  | operator | opening | closing => exact length_stepOperator ⟨nofun, nofun⟩ h

theorem length_foldlM_step (h : ts.foldlM a.step stack = .ok stack') :
    (stack'.length : Int) = stack.length + Token.gains ts := by
  induction ts generalizing stack with
  | nil =>
    cases h
    exact (Int.add_zero _).symm
  | cons t ts ih =>
    rw [List.foldlM_cons] at h
    obtain ⟨next, hnext, hrest⟩ := exists_of_bind_eq_ok h
    rw [ih hrest, length_step hnext, Token.gains, Int.add_assoc]

/-- Tokens with a value have one value more than operators that take two. -/
theorem gains_of_run (h : a.run ts = .ok v) : Token.gains ts = 1 := by
  obtain ⟨stack, hstack, hresult⟩ := exists_of_bind_eq_ok h
  have hlength := length_foldlM_step hstack
  rw [eq_of_result_eq_ok hresult] at hlength
  simp only [List.length_cons, List.length_nil] at hlength
  omega

theorem exists_step_of_mem (h : ts.foldlM a.step stack = .ok stack') (ht : t ∈ ts) :
    ∃ before after, a.step before t = .ok after := by
  induction ts generalizing stack with
  | nil => cases ht
  | cons u ts ih =>
    rw [List.foldlM_cons] at h
    obtain ⟨next, hnext, hrest⟩ := exists_of_bind_eq_ok h
    rcases List.mem_cons.1 ht with rfl | ht
    · exact ⟨stack, next, hnext⟩
    · exact ih hrest ht

/-- Every name among tokens with a value is that of a function. -/
theorem exists_function_of_run {name : Text} (h : a.run ts = .ok v)
    (ht : Token.identifier name ∈ ts) : ∃ f : FunctionName, f.name = name := by
  obtain ⟨stack, hstack, -⟩ := exists_of_bind_eq_ok h
  obtain ⟨before, after, hstep⟩ := exists_step_of_mem hstack ht
  change a.stepCall before name = _ at hstep
  unfold stepCall at hstep
  cases hf : FunctionName.ofName? name with
  | none => simp [hf] at hstep
  | some f => exact ⟨f, FunctionName.name_of_ofName? hf⟩

theorem fault_of_apply {f : FunctionName} {x : Float} (h : a.apply f x = .error fault) :
    fault.OfComputation := by
  cases f with
  | fact =>
    change factorial x = _ at h
    unfold factorial at h
    split at h
    · obtain rfl := Except.error.inj h
      exact .factorialDomain x
    · cases h
  | sin | cos | tan | log | ln | sqrt | asin | acos | atan => cases h

theorem fault_of_step (ht : t.Computable) (h : a.step stack t = .error fault) :
    fault.OfComputation := by
  obtain ⟨kind, text⟩ := t
  cases kind with
  | number =>
    change stepNumber stack text = _ at h
    unfold stepNumber at h
    split at h
    · obtain rfl := Except.error.inj h
      exact .unreadable text
    · cases h
  | identifier =>
    change a.stepCall stack text = _ at h
    unfold stepCall at h
    split at h
    · obtain rfl := Except.error.inj h
      exact .unknownFunction text
    · obtain rfl := Except.error.inj h
      exact .missingOperand text
    · next f x rest _ =>
      cases hx : a.apply f x with
      | ok y => simp [hx, Except.map] at h
      | error fault' =>
        rw [hx] at h
        obtain rfl := Except.error.inj h
        exact fault_of_apply hx
  | operator | opening | closing =>
    change a.stepOperator stack text = _ at h
    have hknown : (Operator.ofSymbol? text).isSome = true :=
      (ht.resolve_left nofun).resolve_left nofun
    unfold stepOperator at h
    split at h
    · next hnone =>
      rw [hnone] at hknown
      cases hknown
    · cases h
    · cases h
    · obtain rfl := Except.error.inj h
      exact .missingOperand text

theorem fault_of_foldlM_step (hts : ∀ t ∈ ts, t.Computable)
    (h : ts.foldlM a.step stack = .error fault) : fault.OfComputation := by
  induction ts generalizing stack with
  | nil => cases h
  | cons t ts ih =>
    rw [List.foldlM_cons] at h
    cases hstep : a.step stack t with
    | error fault' =>
      rw [hstep] at h
      obtain rfl := Except.error.inj h
      exact fault_of_step (hts t List.mem_cons_self) hstep
    | ok next =>
      rw [hstep] at h
      exact ih (fun u hu => hts u (List.mem_cons_of_mem t hu)) h

theorem fault_of_run (hts : ∀ t ∈ ts, t.Computable) (h : a.run ts = .error fault) :
    fault.OfComputation := by
  unfold run at h
  cases hstack : ts.foldlM a.step [] with
  | error fault' =>
    rw [hstack] at h
    obtain rfl := Except.error.inj h
    exact fault_of_foldlM_step hts hstack
  | ok stack =>
    rw [hstack] at h
    change result stack = _ at h
    unfold result at h
    split at h
    · cases h
    · obtain rfl := Except.error.inj h
      exact .leftover _

end Arithmetic
end Calculator
