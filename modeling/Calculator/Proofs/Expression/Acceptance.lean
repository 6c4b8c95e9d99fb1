import Calculator.Proofs.Expression.Inline
import Calculator.Proofs.Grammar.WellFormed
import Calculator.Proofs.Postfix.Conservation
import Calculator.Proofs.Postfix.Nesting
import Calculator.Proofs.Postfix.Progress
import Calculator.Proofs.Token.Shape

/-!
# Which expressions have a value

The arithmetic only counts operands, so it accepts `2(3)+`. While no operand directly follows
another one, the operands that tokens gain never get ahead of those that are complete, and tokens
with a value leave no slack: operands and operators alternate, and the tokens are well formed. So
among the tokens with a value, separated operands are what makes them well formed.
-/

namespace Calculator

open Outcome

theorem Operator.eq_of_symbol_eq {op op' : Operator} (h : op.symbol = op'.symbol) : op = op' := by
  have heq := congrArg Operator.ofSymbol? h
  rw [Operator.ofSymbol?_symbol, Operator.ofSymbol?_symbol] at heq
  exact Option.some.inj heq

namespace Postfix

variable {previous : Option Kind} {t : Token} {ts : List Token}

/-- An operand is complete behind the previous token. -/
def isComplete (previous : Option Kind) : Bool := previous.any Kind.endsOperand

theorem isNegation_symbol {op : Operator} (h : isNegation previous op.symbol = true) :
    op = .binary .sub ∧ isComplete previous = false := by
  simp only [isNegation, Bool.and_eq_true, Bool.or_eq_true, beq_iff_eq] at h
  obtain ⟨hsymbol, (rfl | rfl) | rfl⟩ := h
  all_goals exact ⟨Operator.eq_of_symbol_eq hsymbol, rfl⟩

/-- A token in its place completes as many operands as it gains; one out of place gains too few. -/
theorem alternates_cons_or_lt (ht : t.Proper)
    (hname : ∀ name, t = Token.identifier name → ∃ f : FunctionName, f.name = name)
    (hbegins : isComplete previous = true → t.beginsOperand = false) :
    ((isComplete previous).toNat + Token.gains (contribution previous t) =
        t.kind.endsOperand.toNat ∧
      ∀ ts, Alternates t.kind.endsOperand ts → Alternates (isComplete previous) (t :: ts)) ∨
    (isComplete previous).toNat + Token.gains (contribution previous t) <
      t.kind.endsOperand.toNat := by
  have hincomplete (h : t.beginsOperand = true) : isComplete previous = false := by
    cases hcomplete : isComplete previous with
    | false => rfl
    | true => rw [hbegins hcomplete] at h; cases h
  cases ht with
  | number text =>
    rw [hincomplete rfl]
    exact .inl ⟨rfl, fun ts h => .number text h⟩
  | identifier name =>
    obtain ⟨f, rfl⟩ := hname name rfl
    rw [hincomplete rfl]
    exact .inl ⟨rfl, fun ts h => .name f h⟩
  | operator op =>
    rw [contribution_operator]
    by_cases hneg : isNegation previous op.symbol = true
    · obtain ⟨rfl, hprevious⟩ := isNegation_symbol hneg
      rw [if_pos hneg, hprevious]
      exact .inl ⟨rfl, fun ts h => .negation h⟩
    · rw [if_neg hneg]
      cases op with
      | reciprocal =>
        rw [hincomplete rfl]
        exact .inl ⟨rfl, fun ts h => .reciprocal h⟩
      | binary op =>
        have hgain : Token.gains [Token.operator (Operator.binary op).symbol] = -1 := by
          cases op <;> rfl
        rw [hgain]
        cases isComplete previous with
        | true => exact .inl ⟨rfl, fun ts h => .binary op h⟩
        | false => exact .inr (Int.negSucc_lt_zero 0)
  | opening =>
    rw [hincomplete rfl]
    exact .inl ⟨rfl, fun ts h => .opening h⟩
  | closing =>
    cases isComplete previous with
    | true => exact .inl ⟨rfl, fun ts h => .closing h⟩
    | false => exact .inr Int.zero_lt_one

/-- Separated operands are gained one at a time, and only where they alternate is one gained. -/
theorem gains_le_and_alternates (hproper : ∀ t ∈ ts, t.Proper)
    (hnames : ∀ name, Token.identifier name ∈ ts → ∃ f : FunctionName, f.name = name)
    (hseparated : Separated ts)
    (hhead : isComplete previous = true → ∀ t ∈ ts.head?, t.beginsOperand = false) :
    (isComplete previous).toNat + Token.gains (contributions previous ts) ≤ 1 ∧
      ((isComplete previous).toNat + Token.gains (contributions previous ts) = 1 →
        Alternates (isComplete previous) ts) := by
  induction ts generalizing previous with
  | nil =>
    cases isComplete previous with
    | true => exact ⟨Int.le_refl 1, fun _ => .nil⟩
    | false => exact ⟨Int.one_nonneg, fun h => absurd h Int.zero_ne_one⟩
  | cons t ts ih =>
    obtain ⟨hnext, hrest⟩ := List.isChain_cons.1 hseparated
    have hbegins (hcomplete : isComplete (some t.kind) = true) (u : Token) (hu : u ∈ ts.head?) :
        u.beginsOperand = false :=
      Bool.eq_false_iff.2 fun hbegins => hnext u hu ⟨hcomplete, hbegins⟩
    obtain ⟨hle, halternates⟩ := ih (fun u hu => hproper u (List.mem_cons_of_mem t hu))
      (fun name hu => hnames name (List.mem_cons_of_mem t hu)) hrest hbegins
    have hcomplete : isComplete (some t.kind) = t.kind.endsOperand := rfl
    rw [hcomplete] at hle halternates
    rw [contributions, Token.gains_append]
    rcases alternates_cons_or_lt (hproper t List.mem_cons_self)
      (fun name hname => hnames name (hname ▸ List.mem_cons_self))
      (fun hprevious => hhead hprevious t rfl) with ⟨hgain, hcons⟩ | hgain
    · exact ⟨by omega, fun h => hcons ts (halternates (by omega))⟩
    · exact ⟨by omega, fun h => absurd h (by omega)⟩

theorem mem_contributions_of_identifier {name : Text} (h : Token.identifier name ∈ ts)
    (previous : Option Kind) : Token.identifier name ∈ contributions previous ts := by
  induction ts generalizing previous with
  | nil => cases h
  | cons t ts ih =>
    rw [contributions]
    rcases List.mem_cons.1 h with rfl | h
    · exact List.mem_append_left _ List.mem_cons_self
    · exact List.mem_append_right _ (ih h _)

end Postfix

/-- Separated tokens with a value are well formed. -/
theorem Arithmetic.wellFormed_of_runInfix {a : Arithmetic} {ts : List Token} {v : Float}
    (hproper : ∀ t ∈ ts, t.Proper) (h : a.runInfix ts = .ok v) (hseparated : Separated ts) :
    WellFormed .expression ts := by
  unfold runInfix at h
  cases hordered : Postfix.ofInfix? ts with
  | none => simp [hordered] at h
  | some ordered =>
    simp only [hordered] at h
    have hperm := Postfix.perm_ofInfix? hordered
    have hgains : Token.gains (Postfix.contributions none ts) = 1 := by
      rw [← Token.gains_eq_of_perm hperm, Arithmetic.gains_of_run h]
    have hnames (name : Text) (hname : Token.identifier name ∈ ts) :
        ∃ f : FunctionName, f.name = name :=
      Arithmetic.exists_function_of_run h
        (hperm.mem_iff.2 (Postfix.mem_contributions_of_identifier hname none))
    have hmatched : Token.depthAfter 0 ts = some 0 := by
      have hsome := (Postfix.isSome_ofInfix?_iff ts).1 (by rw [hordered]; rfl)
      exact (balanced_iff (by decide)).1 hsome
    have hhead : Postfix.isComplete none = true → ∀ t ∈ ts.head?, t.beginsOperand = false :=
      fun h => by cases h
    obtain ⟨-, halternates⟩ := Postfix.gains_le_and_alternates hproper hnames hseparated hhead
    exact wellFormed_iff.2 ⟨halternates (by rw [hgains]; rfl), hmatched⟩

namespace Settings

variable {s : Settings} {text : Text}

/-- A text has a value, and then its tokens are well formed exactly if no operand directly follows
another one, or it has a fault. -/
theorem value_evaluate_or_fault (s : Settings) (h : remainder? text = none) :
    (∃ ts v, s.tokens text = .ok ts ∧ (s.evaluate text).value = .ok v ∧
      (WellFormed .expression ts ↔ Separated ts)) ∨
    ∃ fault, (s.evaluate text).value = .error fault := by
  rw [value_evaluate_of_remainder?_eq_none s h]
  cases hvalue : s.inline text with
  | error fault => exact .inr ⟨fault, rfl⟩
  | ok v =>
    obtain ⟨ts, hts, hrun⟩ := exists_of_bind_eq_ok hvalue
    have hproper := Token.proper_scan hts
    exact .inl ⟨ts, v, hts, rfl, fun h => (wellFormed_iff.1 h).1.separated,
      Arithmetic.wellFormed_of_runInfix hproper hrun⟩

theorem value_evaluate_or_fault_negation :
    ∃ ts, (standard .native).tokens "-2*(3 - sqrt 4)".toList = .ok ts ∧
      WellFormed .expression ts := by
  rcases value_evaluate_or_fault (standard .native)
    (rfl : remainder? "-2*(3 - sqrt 4)".toList = none) with ⟨ts, v, hts, -, hiff⟩ | ⟨fault, hfault⟩
  · have htokens : (standard .native).tokens "-2*(3 - sqrt 4)".toList =
        .ok [.binary .sub, .number ['2'], .binary .mul, .opening, .number ['3'], .binary .sub,
          .identifier FunctionName.sqrt.name, .number ['4'], .closing] :=
      eq_ok_of_toOption (by decide +kernel)
    obtain rfl := Except.ok.inj (htokens.symm.trans hts)
    exact ⟨_, htokens, hiff.2 (by decide)⟩
  · have hvalue : ((standard .native).evaluate "-2*(3 - sqrt 4)".toList).value = .ok (-2) :=
      eq_ok_of_toOption (by decide +kernel)
    cases hvalue.symm.trans hfault

/-- The operands of `2(3)+` do not alternate with its operator. -/
theorem not_forall_exists_wellFormed :
    ¬ ∀ (s : Settings) (text : Text) (v : Float), remainder? text = none →
      (s.evaluate text).value = .ok v →
        ∃ ts, s.tokens text = .ok ts ∧ WellFormed .expression ts := by
  intro h
  have hvalue : ((standard .native).evaluate "2(3)+".toList).value = .ok 5 :=
    eq_ok_of_toOption (by decide +kernel)
  have htokens : (standard .native).tokens "2(3)+".toList =
      .ok [.number ['2'], .opening, .number ['3'], .closing, .binary .add] :=
    eq_ok_of_toOption (by decide +kernel)
  obtain ⟨ts, hts, hwellFormed⟩ := h (standard .native) "2(3)+".toList 5 rfl hvalue
  obtain rfl := Except.ok.inj (htokens.symm.trans hts)
  exact absurd (wellFormed_iff.1 hwellFormed).1.separated (by decide)

end Settings
end Calculator
