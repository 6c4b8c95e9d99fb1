import Calculator.Proofs.Postfix.Conservation
import Calculator.Proofs.Postfix.Progress
import Calculator.Proofs.Postfix.Tree

/-!
# Where a computation stops

The tokens before a token tell how many values lie below it: their numbers less their binary
operators. So it can be told without computing whether a token is refused and with which fault,
except that the factorial looks at its argument. A computation stops at the first token that is
refused, whatever stands behind it, and otherwise it is left with the values of the whole list,
`run_stops_at_first_refusal`.
-/

namespace Calculator

namespace Token

/-- A token that counts as a binary operator: by its text, unless it is a number or a name. -/
def isBinary (t : Token) : Bool :=
  t.kind != .number && t.kind != .identifier &&
    match Operator.ofSymbol? t.text with
    | some (.binary _) => true
    | _ => false

/-- The number of values that tokens lead to, their numbers less their binary operators. -/
def height (ts : List Token) : Int := (ts.countP isNumber : Int) - ts.countP isBinary

theorem gain_eq (t : Token) :
    t.gain = (if t.isNumber then 1 else 0) - (if t.isBinary then 1 else 0) := by
  obtain ⟨kind, text⟩ := t
  cases kind with
  | number | identifier => rfl
  | operator | opening | closing =>
    unfold gain isBinary
    cases Operator.ofSymbol? text with
    | none => rfl
    | some op => cases op <;> rfl

theorem height_eq_gains (ts : List Token) : height ts = gains ts := by
  induction ts with
  | nil => rfl
  | cons t ts ih =>
    rw [gains, ← ih, gain_eq, height, height, List.countP_cons, List.countP_cons]
    split <;> split <;> omega

end Token

/-- Why a token is refused behind others: a number by its text, a name if no function has it, a sign
if no operator has it, both for want of values below them, and a factorial by the value below it,
which is that of the tokens in front of it. -/
inductive Refused (a : Arithmetic) (before : List Token) : Token → Fault → Prop
  | unreadable {text : Text} (h : Numeral.double? text = none) :
    Refused a before (Token.number text) (.unreadable text)
  | unknownFunction {name : Text} (h : FunctionName.ofName? name = none) :
    Refused a before (Token.identifier name) (.unknownFunction name)
  | missingArgument (f : FunctionName) (h : Token.height before < 1) :
    Refused a before (Token.identifier f.name) (.missingOperand f.name)
  | unknownOperator (kind : OperatorKind) {symbol : Text} (h : Operator.ofSymbol? symbol = none) :
    Refused a before ⟨kind, symbol⟩ (.unknownOperator symbol)
  | missingOperand (kind : OperatorKind) (h : Token.height before < 1) :
    Refused a before ⟨kind, Operator.reciprocal.symbol⟩
      (.missingOperand Operator.reciprocal.symbol)
  | missingOperands (kind : OperatorKind) (op : BinaryOperator) (h : Token.height before < 2) :
    Refused a before ⟨kind, (Operator.binary op).symbol⟩
      (.missingOperand (Operator.binary op).symbol)
  | factorialDomain {earlier operand : List Token} {x : Float}
    (hbefore : before = earlier ++ operand) (hx : a.run operand = .ok x)
    (hdomain : x < 0 ∨ Double.isWhole x = false) :
    Refused a before (Token.identifier FunctionName.fact.name) (.factorialDomain x)

/-- The token at a place is refused behind those before it. -/
def RefusedAt (a : Arithmetic) (ts : List Token) (i : Nat) (fault : Fault) : Prop :=
  ∃ t, ts[i]? = some t ∧ Refused a (ts.take i) t fault

theorem factorial_eq_error_iff {x : Float} {fault : Fault} :
    factorial x = .error fault ↔
      (x < 0 ∨ Double.isWhole x = false) ∧ fault = .factorialDomain x := by
  unfold factorial
  by_cases hx : x < 0 ∨ Double.isWhole x = false
  · rw [if_pos (by simpa using hx), Except.error.injEq]
    exact ⟨fun h => ⟨hx, h.symm⟩, fun h => h.2.symm⟩
  · rw [if_neg (by simpa using hx)]
    exact ⟨nofun, fun h => absurd h.1 hx⟩

namespace Arithmetic

open Outcome

variable {a : Arithmetic} {before ts us : List Token} {stack : List Float} {t : Token}
variable {fault : Fault} {i : Nat}

theorem apply_eq_error_iff {f : FunctionName} {x : Float} :
    a.apply f x = .error fault ↔
      f = .fact ∧ (x < 0 ∨ Double.isWhole x = false) ∧ fault = .factorialDomain x := by
  cases f with
  | fact => simp [apply, factorial_eq_error_iff]
  | sin | cos | tan | log | ln | sqrt | asin | acos | atan => simp [apply]

theorem length_eq_height (h : before.foldlM a.step [] = .ok stack) :
    (stack.length : Int) = Token.height before := by
  have hlength := length_foldlM_step h
  rw [← Token.height_eq_gains] at hlength
  simpa using hlength

/-- The topmost value is that of the tokens that end here. -/
theorem exists_operand {x : Float} (h : before.foldlM a.step [] = .ok (x :: stack)) :
    ∃ earlier operand, before = earlier ++ operand ∧ a.run operand = .ok x := by
  obtain ⟨forest, hforest, hlisting⟩ := ArityTree.exists_forest_of_foldlM .nil h
  cases hforest with
  | @cons tree x below stack hx hbelow =>
    refine ⟨ArityTree.forestListing below, tree.listing, hlisting.symm, ?_⟩
    rw [tree.computes_listing.run_eq, hx]

theorem stepCall_eq_error_iff {name : Text} (h : before.foldlM a.step [] = .ok stack) :
    a.stepCall stack name = .error fault ↔ Refused a before (Token.identifier name) fault := by
  have hlength := length_eq_height h
  constructor
  · intro hstep
    unfold stepCall at hstep
    cases hname : FunctionName.ofName? name with
    | none =>
      simp only [hname, Except.error.injEq] at hstep
      exact hstep ▸ .unknownFunction hname
    | some f =>
      obtain rfl := FunctionName.ofName?_eq_some_iff.1 hname
      cases stack with
      | nil =>
        simp only [hname, Except.error.injEq] at hstep
        exact hstep ▸ .missingArgument f (by rw [← hlength]; simp)
      | cons x rest =>
        simp only [hname] at hstep
        obtain ⟨earlier, operand, hbefore, hx⟩ := exists_operand h
        cases happly : a.apply f x with
        | ok y => simp [happly, Except.map] at hstep
        | error fault' =>
          simp only [happly, Except.map, Except.error.injEq] at hstep
          obtain ⟨rfl, hdomain, rfl⟩ := apply_eq_error_iff.1 happly
          exact hstep ▸ .factorialDomain hbefore hx hdomain
  · intro hrefused
    unfold stepCall
    generalize ht : Token.identifier name = t at hrefused
    cases hrefused with
    | unreadable hread => cases ht
    | unknownOperator kind hsymbol => exact absurd (congrArg Token.kind ht).symm kind.2.2
    | missingOperand kind hheight => exact absurd (congrArg Token.kind ht).symm kind.2.2
    | missingOperands kind op hheight => exact absurd (congrArg Token.kind ht).symm kind.2.2
    | unknownFunction hname =>
      cases ht
      simp only [hname]
    | missingArgument f hheight =>
      cases ht
      have hnil : stack = [] := List.length_eq_zero_iff.1 (by omega)
      simp only [FunctionName.ofName?_name, hnil]
    | @factorialDomain earlier operand x hbefore hx hdomain =>
      cases ht
      subst hbefore
      rw [List.foldlM_append] at h
      obtain ⟨below, -, hoperand⟩ := exists_of_bind_eq_ok h
      rw [foldlM_step_of_run hx] at hoperand
      obtain rfl := Except.ok.inj hoperand
      have hfact : a.apply .fact x = .error (.factorialDomain x) :=
        apply_eq_error_iff.2 ⟨rfl, hdomain, rfl⟩
      simp only [FunctionName.ofName?_name, hfact, Except.map]

theorem stepOperator_eq_error_iff (kind : OperatorKind) {symbol : Text}
    (h : before.foldlM a.step [] = .ok stack) :
    a.stepOperator stack symbol = .error fault ↔ Refused a before ⟨kind, symbol⟩ fault := by
  have hlength := length_eq_height h
  constructor
  · intro hstep
    unfold stepOperator at hstep
    cases hsymbol : Operator.ofSymbol? symbol with
    | none =>
      simp only [hsymbol, Except.error.injEq] at hstep
      exact hstep ▸ .unknownOperator kind hsymbol
    | some op =>
      obtain rfl := Operator.ofSymbol?_eq_some_iff.1 hsymbol
      cases op with
      | reciprocal =>
        cases stack with
        | nil =>
          simp only [hsymbol, Except.error.injEq] at hstep
          exact hstep ▸ .missingOperand kind (by rw [← hlength]; simp)
        | cons x rest => simp [hsymbol] at hstep
      | binary op =>
        match stack, hstep, hlength with
        | [], hstep, hlength | [x], hstep, hlength =>
          simp only [hsymbol, Except.error.injEq] at hstep
          exact hstep ▸ .missingOperands kind op (by rw [← hlength]; simp)
        | y :: x :: rest, hstep, hlength => simp [hsymbol] at hstep
  · intro hrefused
    unfold stepOperator
    generalize ht : (⟨kind, symbol⟩ : Token) = t at hrefused
    cases hrefused with
    | unreadable hread => exact absurd (congrArg Token.kind ht) kind.2.1
    | unknownFunction hname => exact absurd (congrArg Token.kind ht) kind.2.2
    | missingArgument f hheight => exact absurd (congrArg Token.kind ht) kind.2.2
    | factorialDomain hbefore hx hdomain => exact absurd (congrArg Token.kind ht) kind.2.2
    | unknownOperator kind hsymbol =>
      obtain rfl := congrArg Token.text ht
      simp only [hsymbol]
    | missingOperand kind hheight =>
      obtain rfl := congrArg Token.text ht
      have hnil : stack = [] := List.length_eq_zero_iff.1 (by omega)
      simp only [Operator.ofSymbol?_symbol, hnil]
    | missingOperands kind op hheight =>
      obtain rfl := congrArg Token.text ht
      match stack, hlength with
      | [], _ | [x], _ => simp only [Operator.ofSymbol?_symbol]
      | y :: x :: rest, hlength =>
        simp only [List.length_cons] at hlength
        omega

/-- A step fails exactly if its token is refused behind those before it. -/
theorem step_eq_error_iff (h : before.foldlM a.step [] = .ok stack) :
    a.step stack t = .error fault ↔ Refused a before t fault := by
  obtain ⟨kind, text⟩ := t
  by_cases hnumber : kind = .number
  · subst hnumber
    change stepNumber stack text = _ ↔ _
    unfold stepNumber
    constructor
    · intro hstep
      cases hread : Numeral.double? text with
      | some x => simp [hread] at hstep
      | none =>
        simp only [hread, Except.error.injEq] at hstep
        exact hstep ▸ .unreadable hread
    · intro hrefused
      generalize ht : (⟨.number, text⟩ : Token) = t at hrefused
      cases hrefused with
      | unreadable hread =>
        obtain rfl := congrArg Token.text ht
        simp only [hread]
      | unknownFunction | missingArgument | factorialDomain => cases ht
      | unknownOperator kind | missingOperand kind | missingOperands kind =>
        exact absurd (congrArg Token.kind ht).symm kind.2.1
  · by_cases hidentifier : kind = .identifier
    · subst hidentifier
      exact stepCall_eq_error_iff h
    · rw [ArityTree.step_operatorKind ⟨kind, hnumber, hidentifier⟩]
      exact stepOperator_eq_error_iff ⟨kind, hnumber, hidentifier⟩ h

theorem foldlM_take_succ (ht : ts[i]? = some t) :
    (ts.take (i + 1)).foldlM a.step [] =
      ((ts.take i).foldlM a.step []).bind fun stack => a.step stack t := by
  rw [List.take_add_one, ht, List.foldlM_append]
  congr 1
  funext stack
  exact bind_pure _

/-- The first tokens are computed exactly if none of them is refused. -/
theorem exists_stack_iff (a : Arithmetic) (ts : List Token) (i : Nat) :
    (∃ stack, (ts.take i).foldlM a.step [] = .ok stack) ↔
      ∀ j < i, ∀ fault, ¬ RefusedAt a ts j fault := by
  induction i with
  | zero => exact ⟨fun _ j hj => absurd hj (Nat.not_lt_zero j), fun _ => ⟨[], rfl⟩⟩
  | succ i ih =>
    rw [Nat.forall_lt_succ_right, ← ih]
    cases ht : ts[i]? with
    | none =>
      have htake : ts.take (i + 1) = ts.take i := by rw [List.take_add_one, ht]; simp
      have hnot : ∀ fault, ¬ RefusedAt a ts i fault := by
        rintro fault ⟨t, hsome, -⟩
        rw [ht] at hsome
        cases hsome
      rw [htake]
      exact ⟨fun h => ⟨h, hnot⟩, And.left⟩
    | some t =>
      rw [foldlM_take_succ ht]
      constructor
      · rintro ⟨next, h⟩
        obtain ⟨stack, hstack, hstep⟩ := exists_of_bind_eq_ok h
        refine ⟨⟨stack, hstack⟩, ?_⟩
        rintro fault ⟨u, hu, hrefused⟩
        obtain rfl := Option.some.inj (ht.symm.trans hu)
        rw [(step_eq_error_iff hstack).2 hrefused] at hstep
        cases hstep
      · rintro ⟨⟨stack, hstack⟩, hnot⟩
        rw [hstack]
        cases hstep : a.step stack t with
        | ok next => exact ⟨next, hstep⟩
        | error fault => exact absurd ⟨t, ht, (step_eq_error_iff hstack).1 hstep⟩ (hnot fault)

theorem result_of_length_ne_one {stack : List Float} (h : stack.length ≠ 1) :
    result stack = .error (.leftover stack.length) := by
  rcases stack with _ | ⟨x, _ | ⟨y, rest⟩⟩
  · rfl
  · exact absurd rfl h
  · rfl

/-- The first token that is refused decides the fault, whatever the tokens behind it are: the
tokens before it are computed, to as many values as they have. If none is refused there is a value
exactly where one value is left, and otherwise the number of values left is the fault. -/
theorem run_stops_at_first_refusal (a : Arithmetic) (ts : List Token) :
    (∀ i fault, RefusedAt a ts i fault → (∀ j < i, ∀ other, ¬ RefusedAt a ts j other) →
      (∃ stack t, (ts.take i).foldlM a.step [] = .ok stack ∧
        (stack.length : Int) = Token.height (ts.take i) ∧
        ts[i]? = some t ∧ a.step stack t = .error fault) ∧
      ∀ us, us.take (i + 1) = ts.take (i + 1) → a.run us = .error fault) ∧
    ((∀ i fault, ¬ RefusedAt a ts i fault) →
      (Token.height ts = 1 → ∃ v, a.run ts = .ok v) ∧
      (Token.height ts ≠ 1 →
        ∃ count : Nat, (count : Int) = Token.height ts ∧ a.run ts = .error (.leftover count))) := by
  constructor
  · rintro i fault ⟨t, ht, hrefused⟩ hfirst
    obtain ⟨stack, hstack⟩ := (exists_stack_iff a ts i).2 hfirst
    have hstep := (step_eq_error_iff hstack).2 hrefused
    refine ⟨⟨stack, t, hstack, length_eq_height hstack, ht, hstep⟩, fun us hus => ?_⟩
    have hfold : (us.take (i + 1)).foldlM a.step [] = .error fault := by
      rw [hus, foldlM_take_succ ht, hstack]
      exact hstep
    rw [run, ← List.take_append_drop (i + 1) us, List.foldlM_append, hfold]
    rfl
  · intro hnone
    obtain ⟨stack, hstack⟩ := (exists_stack_iff a ts ts.length).2 fun j _ => hnone j
    rw [List.take_length] at hstack
    have hlength := length_eq_height hstack
    rw [run, hstack, ← hlength]
    change (_ → ∃ v, result stack = .ok v) ∧
      (_ → ∃ count : Nat, _ ∧ result stack = .error (.leftover count))
    refine ⟨fun h => ?_, fun h => ⟨stack.length, rfl, result_of_length_ne_one ?_⟩⟩
    · obtain ⟨x, rfl⟩ := List.length_eq_one_iff.1 (Int.ofNat.inj h)
      exact ⟨x, rfl⟩
    · exact fun hone => h (congrArg Int.ofNat hone)

/-- The factorial of a half, with a missing operand behind it; and two values that are left. -/
theorem run_stops_at_first_refusal_half :
    run ⟨.native, .degrees⟩ [Token.number ['1'], Token.number ['2'], Token.binary .div,
        Token.identifier "fact".toList, Token.binary .add] = .error (.factorialDomain 0.5) ∧
      run ⟨.native, .degrees⟩ [Token.number ['2'], Token.number ['3']] = .error (.leftover 2) := by
  constructor
  · have hhalf : [Token.number ['1'], Token.number ['2'], Token.binary .div].foldlM
        (step ⟨.native, .degrees⟩) [] = .ok [0.5] := eq_ok_of_toOption (by decide +kernel)
    have hrun : run ⟨.native, .degrees⟩ [Token.number ['1'], Token.number ['2'],
        Token.binary .div] = .ok 0.5 := eq_ok_of_toOption (by decide +kernel)
    have hdomain : Double.isWhole 0.5 = false := by decide +kernel
    have hfirst := (exists_stack_iff ⟨.native, .degrees⟩ [Token.number ['1'], Token.number ['2'],
      Token.binary .div, Token.identifier "fact".toList, Token.binary .add] 3).1 ⟨_, hhalf⟩
    exact ((run_stops_at_first_refusal _ _).1 3 _
      ⟨_, rfl, .factorialDomain (List.nil_append _).symm hrun (.inr hdomain)⟩ hfirst).2 _ rfl
  · have htwo : [Token.number ['2'], Token.number ['3']].foldlM (step ⟨.native, .degrees⟩) [] =
        .ok [3, 2] := eq_ok_of_toOption (by decide +kernel)
    have hbefore := (exists_stack_iff ⟨.native, .degrees⟩
      [Token.number ['2'], Token.number ['3']] 2).1 ⟨_, htwo⟩
    have hnone : ∀ i fault, ¬ RefusedAt ⟨.native, .degrees⟩
        [Token.number ['2'], Token.number ['3']] i fault := by
      rintro i fault ⟨t, ht, hrefused⟩
      have hi : i < 2 := (List.getElem?_eq_some_iff.1 ht).1
      exact hbefore i hi fault ⟨t, ht, hrefused⟩
    obtain ⟨count, hcount, hrun⟩ := ((run_stops_at_first_refusal _ _).2 hnone).2 (by decide)
    obtain rfl : count = 2 := Int.ofNat.inj hcount
    exact hrun

end Arithmetic
end Calculator
