import Mathlib.Data.List.Chain
import Calculator.FunctionName
import Calculator.Proofs.Balance
import Calculator.Proofs.Grammar.Derivation

/-!
# Well-formed tokens

`WellFormed l ts` says that the grammar derives the tokens `ts` at the level `l`. Besides calls with
parentheses there are bare ones, of a name and a whole expression. Tokens are well formed exactly if
their parentheses match and operands and operators alternate, `wellFormed_iff`. `Alternates` says
this token by token, without finding the parenthesis that closes a group: reading the groups in is
left to `Alternates.exists_completes`.
-/

namespace Calculator

/-- The tokens that the grammar derives. -/
inductive WellFormed : Level → List Token → Prop
  | number (text : Text) : WellFormed .atom [Token.number text]
  | call (f : FunctionName) {ts : List Token} (h : WellFormed .expression ts) :
    WellFormed .atom (Token.identifier f.name :: Token.opening :: (ts ++ [Token.closing]))
  | group {ts : List Token} (h : WellFormed .expression ts) :
    WellFormed .atom (Token.opening :: (ts ++ [Token.closing]))
  | single {ts : List Token} (h : WellFormed .atom ts) : WellFormed .factor ts
  | power {ts us : List Token} (base : WellFormed .atom ts) (exponent : WellFormed .factor us) :
    WellFormed .factor (ts ++ Token.binary .pow :: us)
  | negation {ts : List Token} (h : WellFormed .factor ts) :
    WellFormed .factor (Token.binary .sub :: ts)
  | reciprocal {ts : List Token} (h : WellFormed .factor ts) :
    WellFormed .factor (Token.reciprocal :: ts)
  | bareCall (f : FunctionName) {ts : List Token} (h : WellFormed .expression ts) :
    WellFormed .factor (Token.identifier f.name :: ts)
  | factor {ts : List Token} (h : WellFormed .factor ts) : WellFormed .term ts
  | product {ts us : List Token} (left : WellFormed .term ts) (op : BinaryOperator)
    (hop : op = .mul ∨ op = .div) (right : WellFormed .factor us) :
    WellFormed .term (ts ++ Token.binary op :: us)
  | term {ts : List Token} (h : WellFormed .term ts) : WellFormed .expression ts
  | sum {ts us : List Token} (left : WellFormed .expression ts) (op : BinaryOperator)
    (hop : op = .add ∨ op = .sub) (right : WellFormed .term us) :
    WellFormed .expression (ts ++ Token.binary op :: us)

namespace WellFormed

variable {l : Level} {pre ts us : List Token}

/-- What may stand before a factor may stand before a term, at its first factor. -/
theorem prepend_term (hpre : ∀ us, WellFormed .factor us → WellFormed .term (pre ++ us))
    (h : WellFormed .term ts) : WellFormed .term (pre ++ ts) := by
  generalize hl : Level.term = l at h
  induction h with
  | factor h => exact hpre _ h
  | product left op hop right ih =>
    rw [← List.append_assoc]
    exact .product (ih hl) op hop right
  | _ => cases hl

/-- What may stand before a term may stand before an expression, at its first term. -/
theorem prepend_expression (hpre : ∀ us, WellFormed .term us → WellFormed .expression (pre ++ us))
    (h : WellFormed .expression ts) : WellFormed .expression (pre ++ ts) := by
  generalize hl : Level.expression = l at h
  induction h with
  | term h => exact hpre _ h
  | sum left op hop right ih =>
    rw [← List.append_assoc]
    exact .sum (ih hl) op hop right
  | _ => cases hl

theorem prepend (hpre : ∀ us, WellFormed .factor us → WellFormed .term (pre ++ us))
    (h : WellFormed .expression ts) : WellFormed .expression (pre ++ ts) :=
  h.prepend_expression fun _ hterm => .term (hterm.prepend_term hpre)

/-- An atom may be the left operand of any operator before an expression. -/
theorem operation (left : WellFormed .atom ts) (op : BinaryOperator)
    (right : WellFormed .expression us) : WellFormed .expression (ts ++ Token.binary op :: us) := by
  rw [List.append_cons]
  cases op with
  | pow =>
    refine right.prepend fun vs hvs => ?_
    rw [← List.append_cons]
    exact .factor (.power left hvs)
  | mul | div =>
    refine right.prepend fun vs hvs => ?_
    rw [← List.append_cons]
    exact .product (.factor (.single left)) _ (by simp) hvs
  | add | sub =>
    refine right.prepend_expression fun vs hvs => ?_
    rw [← List.append_cons]
    exact .sum (.term (.factor (.single left))) _ (by simp) hvs

end WellFormed

/-- How many parentheses are open behind tokens; `none` when one closes that was not opened. -/
def Token.depthAfter (n : Nat) (ts : List Token) : Option Nat :=
  openAfter Kind.opening Kind.closing n (ts.map Token.kind)

/-- Well-formed tokens close what they open and no more. -/
theorem WellFormed.depthAfter_append {l : Level} {ts : List Token} (h : WellFormed l ts) (n : Nat)
    (us : List Token) : Token.depthAfter n (ts ++ us) = Token.depthAfter n us := by
  induction h generalizing n us with
  | number text => rfl
  | call f h ih =>
    rw [List.cons_append, List.cons_append, List.append_assoc]
    exact ih (n + 1) _
  | group h ih =>
    rw [List.cons_append, List.append_assoc]
    exact ih (n + 1) _
  | single h ih | factor h ih | term h ih => exact ih n us
  | negation h ih | reciprocal h ih | bareCall f h ih => exact ih n us
  | power left right ihl ihr | product left op hop right ihl ihr | sum left op hop right ihl ihr =>
    rw [List.append_assoc, ihl]
    exact ihr n us

/-- Operands and operators alternate; the flag says that an operand has just ended. -/
inductive Alternates : Bool → List Token → Prop
  | nil : Alternates true []
  | number (text : Text) {ts : List Token} (h : Alternates true ts) :
    Alternates false (Token.number text :: ts)
  | name (f : FunctionName) {ts : List Token} (h : Alternates false ts) :
    Alternates false (Token.identifier f.name :: ts)
  | opening {ts : List Token} (h : Alternates false ts) : Alternates false (Token.opening :: ts)
  | negation {ts : List Token} (h : Alternates false ts) :
    Alternates false (Token.binary .sub :: ts)
  | reciprocal {ts : List Token} (h : Alternates false ts) :
    Alternates false (Token.reciprocal :: ts)
  | closing {ts : List Token} (h : Alternates true ts) : Alternates true (Token.closing :: ts)
  | binary (op : BinaryOperator) {ts : List Token} (h : Alternates false ts) :
    Alternates true (Token.binary op :: ts)

theorem WellFormed.alternates_append {l : Level} {ts us : List Token} (h : WellFormed l ts)
    (hus : Alternates true us) : Alternates false (ts ++ us) := by
  induction h generalizing us with
  | number text => exact .number text hus
  | call f h ih =>
    rw [List.cons_append, List.cons_append, List.append_assoc]
    exact .name f (.opening (ih (.closing hus)))
  | group h ih =>
    rw [List.cons_append, List.append_assoc]
    exact .opening (ih (.closing hus))
  | single h ih | factor h ih | term h ih => exact ih hus
  | negation h ih => exact .negation (ih hus)
  | reciprocal h ih => exact .reciprocal (ih hus)
  | bareCall f h ih => exact .name f (ih hus)
  | power left right ihl ihr | product left op hop right ihl ihr | sum left op hop right ihl ihr =>
    rw [List.append_assoc]
    exact ihl (.binary _ (ihr hus))

/-- What the tokens up to a closing parenthesis or the end are: an expression, or what makes one of
any atom in front of them. -/
def Completes : Bool → List Token → Prop
  | true, ts => ∀ atom, WellFormed .atom atom → WellFormed .expression (atom ++ ts)
  | false, ts => WellFormed .expression ts

theorem completes_nil : Completes true [] := by
  intro atom hatom
  rw [List.append_nil]
  exact .term (.factor (.single hatom))

/-- Alternating tokens can be read up to a closing parenthesis or the end. -/
theorem Alternates.exists_completes {complete : Bool} {ts : List Token} {n : Nat}
    (h : Alternates complete ts) (hn : Token.depthAfter n ts = some 0) :
    ∃ body rest, ts = body ++ rest ∧ Completes complete body ∧
      (rest = [] ∨ ∃ later, rest = Token.closing :: later ∧ Alternates true later) := by
  induction hlen : ts.length using Nat.strongRecOn generalizing complete ts n with
  | ind length ih =>
    subst hlen
    -- A token that is no parenthesis is put in front of what the tokens behind it are.
    have hcons {t : Token} {us : List Token} {behind : Bool} (hts : ts = t :: us)
        (ht : Token.depthAfter n (t :: us) = Token.depthAfter n us) (hus : Alternates behind us)
        (hbody : ∀ body, Completes behind body → Completes complete (t :: body)) :
        ∃ body rest, ts = body ++ rest ∧ Completes complete body ∧
          (rest = [] ∨ ∃ later, rest = Token.closing :: later ∧ Alternates true later) := by
      subst hts
      rw [ht] at hn
      obtain ⟨body, rest, rfl, hcompletes, hrest⟩ := ih us.length (Nat.lt_succ_self _) hus hn rfl
      exact ⟨t :: body, rest, rfl, hbody body hcompletes, hrest⟩
    cases h with
    | nil => exact ⟨[], [], rfl, completes_nil, .inl rfl⟩
    | number text h => exact hcons rfl rfl h fun body hbody => hbody _ (.number text)
    | name f h => exact hcons rfl rfl h fun body hbody => .term (.factor (.bareCall f hbody))
    | @opening us h =>
      have hus : Token.depthAfter (n + 1) us = some 0 := hn
      obtain ⟨inner, rest, rfl, hinner, hrest⟩ := ih us.length (Nat.lt_succ_self _) h hus rfl
      rw [WellFormed.depthAfter_append hinner] at hus
      -- The parenthesis that is open here has to close, and then the group is an atom.
      obtain rfl | ⟨later, rfl, hlater⟩ := hrest
      · cases hus
      · have hlt : later.length < (Token.opening :: (inner ++ Token.closing :: later)).length := by
          simp only [List.length_cons, List.length_append]
          omega
        obtain ⟨body, rest, rfl, hbody, hrest⟩ := ih later.length hlt hlater hus rfl
        exact ⟨Token.opening :: (inner ++ [Token.closing]) ++ body, rest, by simp,
          hbody _ (.group hinner), hrest⟩
    | negation h =>
      have hprepend (us : List Token) (hus : WellFormed .factor us) :
          WellFormed .term ([Token.binary .sub] ++ us) := .factor (.negation hus)
      exact hcons rfl rfl h fun body hbody => WellFormed.prepend hprepend hbody
    | reciprocal h =>
      have hprepend (us : List Token) (hus : WellFormed .factor us) :
          WellFormed .term ([Token.reciprocal] ++ us) := .factor (.reciprocal hus)
      exact hcons rfl rfl h fun body hbody => WellFormed.prepend hprepend hbody
    | closing h => exact ⟨[], _, rfl, completes_nil, .inr ⟨_, rfl, h⟩⟩
    | binary op h => exact hcons rfl rfl h fun body hbody atom hatom => hatom.operation op hbody

/-- Tokens are well formed exactly if operands and operators alternate and parentheses match. -/
theorem wellFormed_iff {ts : List Token} :
    WellFormed .expression ts ↔ Alternates false ts ∧ Token.depthAfter 0 ts = some 0 := by
  constructor
  · intro h
    have halternates := h.alternates_append .nil
    have hdepth := h.depthAfter_append 0 []
    rw [List.append_nil] at halternates hdepth
    exact ⟨halternates, hdepth⟩
  · rintro ⟨h, hn⟩
    obtain ⟨body, rest, rfl, hbody, hrest⟩ := h.exists_completes hn
    rw [WellFormed.depthAfter_append hbody] at hn
    obtain rfl | ⟨later, rfl, -⟩ := hrest
    · rw [List.append_nil]
      exact hbody
    · cases hn

/-- After tokens of this kind an operand is complete. -/
def Kind.endsOperand : Kind → Bool
  | .number | .closing => true
  | .identifier | .operator | .opening => false

/-- Numbers, names, opening parentheses and reciprocals begin an operand. -/
def Token.beginsOperand (t : Token) : Bool :=
  match t.kind with
  | .number | .identifier | .opening => true
  | .operator => t == reciprocal
  | .closing => false

/-- No operand directly follows another one. -/
def Separated (ts : List Token) : Prop :=
  ts.IsChain fun t u => ¬ (t.kind.endsOperand = true ∧ u.beginsOperand = true)

instance (ts : List Token) : Decidable (Separated ts) :=
  inferInstanceAs (Decidable (List.IsChain _ ts))

namespace Alternates

variable {complete : Bool} {t : Token} {ts : List Token}

theorem beginsOperand_eq_false (h : Alternates true ts) (ht : t ∈ ts.head?) :
    t.beginsOperand = false := by
  cases h with
  | nil => cases ht
  | closing h =>
    obtain rfl := Option.some.inj ht
    rfl
  | binary op h =>
    obtain rfl := Option.some.inj ht
    cases op <;> rfl

/-- No operand directly follows another one where operands and operators alternate. -/
theorem separated (h : Alternates complete ts) : Separated ts := by
  have hends {t : Token} {us : List Token} (hus : Alternates true us) (ih : Separated us) :
      Separated (t :: us) := by
    refine List.isChain_cons.2 ⟨fun u hu h => ?_, ih⟩
    rw [hus.beginsOperand_eq_false hu] at h
    cases h.2
  have hopen {t : Token} {us : List Token} (ht : t.kind.endsOperand = false) (ih : Separated us) :
      Separated (t :: us) := by
    refine List.isChain_cons.2 ⟨fun u _ h => ?_, ih⟩
    rw [ht] at h
    cases h.1
  induction h with
  | nil => exact List.isChain_nil
  | number text h ih => exact hends h ih
  | closing h ih => exact hends h ih
  | name f h ih => exact hopen rfl ih
  | opening h ih | negation h ih | reciprocal h ih | binary op h ih => exact hopen rfl ih

end Alternates
end Calculator
