import Mathlib.Data.List.Forall2
import Calculator.Proofs.Postfix.Operand

/-!
# Trees of postfix listings

An arity tree has readable numbers as its leaves, functions and reciprocals with one subtree, and
binary operators with two. The stack of the arithmetic is a forest of such trees, each with its
value: a token joins the topmost trees to one, and the listing of the forest grows by that token. So
tokens have a value exactly when they list a tree that has it, `run_eq_ok_iff`, and they list at
most one tree.
-/

namespace Calculator

/-- The kinds of token that count as operators, by their text alone. -/
abbrev OperatorKind := { k : Kind // k ≠ .number ∧ k ≠ .identifier }

inductive ArityTree
  | number (text : Text) (readable : (Numeral.double? text).isSome)
  | call (f : FunctionName) (argument : ArityTree)
  | reciprocal (kind : OperatorKind) (operand : ArityTree)
  | binary (kind : OperatorKind) (op : BinaryOperator) (left right : ArityTree)

namespace ArityTree

/-- The tokens of a tree, each node after its subtrees. -/
def listing : ArityTree → List Token
  | number text _ => [Token.number text]
  | call f argument => argument.listing ++ [Token.identifier f.name]
  | reciprocal kind operand => operand.listing ++ [⟨kind, Operator.reciprocal.symbol⟩]
  | binary kind op left right =>
    left.listing ++ right.listing ++ [⟨kind, (Operator.binary op).symbol⟩]

/-- The outcome of computing from the leaves to the root. -/
def value (a : Arithmetic) : ArityTree → Except Fault Float
  | number text readable => .ok ((Numeral.double? text).get readable)
  | call f argument => (argument.value a).bind (a.apply f)
  | reciprocal _ operand => (operand.value a).map Arithmetic.reciprocal
  | binary _ op left right =>
    (left.value a).bind fun x => (right.value a).map fun y => a.binary op x y

variable {a : Arithmetic} {forest : List ArityTree} {stack stack' : List Float} {ts : List Token}
variable {t : Token} {v : Float}

theorem step_operatorKind (kind : OperatorKind) (symbol : Text) (stack : List Float) :
    a.step stack ⟨kind, symbol⟩ = a.stepOperator stack symbol := by
  obtain ⟨k, hnumber, hidentifier⟩ := kind
  cases k with
  | number => exact absurd rfl hnumber
  | identifier => exact absurd rfl hidentifier
  | operator | opening | closing => rfl

theorem computes_listing (tree : ArityTree) : a.Computes tree.listing (tree.value a) := by
  induction tree with
  | number text readable =>
    obtain ⟨x, hx⟩ := Option.isSome_iff_exists.1 readable
    have hnumber := Arithmetic.computes_number (a := a) text
    rw [hx, Option.elim_some] at hnumber
    simpa only [listing, value, hx, Option.get_some] using hnumber
  | call f argument ih =>
    refine ih.unary fun x stack => ?_
    change a.stepCall (x :: stack) f.name = _
    simp only [Arithmetic.stepCall, FunctionName.ofName?_name]
  | reciprocal kind operand ih =>
    have hstep (x : Float) (stack : List Float) :
        a.step (x :: stack) ⟨kind, Operator.reciprocal.symbol⟩ =
          (Except.ok (Arithmetic.reciprocal x)).map (· :: stack) := by
      rw [step_operatorKind]
      rfl
    rw [listing, value, Outcome.map_eq_bind]
    exact ih.unary hstep
  | binary kind op left right ihl ihr =>
    refine ihl.operation ihr fun x y stack => ?_
    rw [step_operatorKind, Arithmetic.stepOperator_binary]

/-- The tokens of trees that lie on one another, the topmost one being the first. -/
def forestListing : List ArityTree → List Token
  | [] => []
  | top :: below => forestListing below ++ top.listing

/-- The values on a stack are those of the trees of a forest. -/
def Represents (a : Arithmetic) (forest : List ArityTree) (stack : List Float) : Prop :=
  List.Forall₂ (fun tree v => tree.value a = .ok v) forest stack

theorem exists_forest_of_stepCall {name : Text} (hf : Represents a forest stack)
    (h : a.stepCall stack name = .ok stack') :
    ∃ forest', Represents a forest' stack' ∧
      forestListing forest' = forestListing forest ++ [Token.identifier name] := by
  unfold Arithmetic.stepCall at h
  cases hname : FunctionName.ofName? name with
  | none => simp [hname] at h
  | some f =>
    cases hf with
    | nil => simp [hname] at h
    | @cons tree x below rest hx hrest =>
      simp only [hname] at h
      obtain ⟨y, hy, rfl⟩ := Outcome.exists_of_map_eq_ok h
      obtain rfl := FunctionName.ofName?_eq_some_iff.1 hname
      refine ⟨call f tree :: below, List.Forall₂.cons ?_ hrest, ?_⟩
      · rw [value, hx]
        exact hy
      · simp only [forestListing, listing, List.append_assoc]

theorem exists_forest_of_stepOperator {symbol : Text} (kind : OperatorKind)
    (hf : Represents a forest stack) (h : a.stepOperator stack symbol = .ok stack') :
    ∃ forest', Represents a forest' stack' ∧
      forestListing forest' = forestListing forest ++ [⟨kind, symbol⟩] := by
  unfold Arithmetic.stepOperator at h
  cases hsymbol : Operator.ofSymbol? symbol with
  | none => simp [hsymbol] at h
  | some operator =>
    obtain rfl := Operator.ofSymbol?_eq_some_iff.1 hsymbol
    cases operator with
    | reciprocal =>
      cases hf with
      | nil => simp [hsymbol] at h
      | @cons tree x below rest hx hrest =>
        simp only [hsymbol, Except.ok.injEq] at h
        subst stack'
        refine ⟨reciprocal kind tree :: below, List.Forall₂.cons ?_ hrest, ?_⟩
        · rw [value, hx]
          rfl
        · simp only [forestListing, listing, List.append_assoc]
    | binary op =>
      cases hf with
      | nil => simp [hsymbol] at h
      | @cons right y below rest hy hrest =>
        cases hrest with
        | nil => simp [hsymbol] at h
        | @cons left x below rest hx hrest =>
          simp only [hsymbol, Except.ok.injEq] at h
          subst stack'
          refine ⟨binary kind op left right :: below, List.Forall₂.cons ?_ hrest, ?_⟩
          · rw [value, hx, hy]
            rfl
          · simp only [forestListing, listing, List.append_assoc]

/-- Each token joins trees on top of the forest, or begins a new one. -/
theorem exists_forest_of_step (hf : Represents a forest stack) (h : a.step stack t = .ok stack') :
    ∃ forest', Represents a forest' stack' ∧
      forestListing forest' = forestListing forest ++ [t] := by
  obtain ⟨kind, text⟩ := t
  by_cases hnumber : kind = .number
  · subst kind
    change Arithmetic.stepNumber stack text = .ok stack' at h
    unfold Arithmetic.stepNumber at h
    cases hx : Numeral.double? text with
    | none => simp [hx] at h
    | some x =>
      simp only [hx, Except.ok.injEq] at h
      subst stack'
      have hread : (Numeral.double? text).isSome = true := by rw [hx, Option.isSome_some]
      refine ⟨number text hread :: forest, List.Forall₂.cons ?_ hf, rfl⟩
      simp only [value, hx, Option.get_some]
  · by_cases hidentifier : kind = .identifier
    · subst kind
      exact exists_forest_of_stepCall hf h
    · rw [step_operatorKind ⟨kind, hnumber, hidentifier⟩] at h
      exact exists_forest_of_stepOperator ⟨kind, hnumber, hidentifier⟩ hf h

theorem exists_forest_of_foldlM (hf : Represents a forest stack)
    (h : ts.foldlM a.step stack = .ok stack') :
    ∃ forest', Represents a forest' stack' ∧
      forestListing forest' = forestListing forest ++ ts := by
  induction ts generalizing forest stack with
  | nil =>
    cases h
    exact ⟨forest, hf, (List.append_nil _).symm⟩
  | cons t ts ih =>
    rw [List.foldlM_cons] at h
    obtain ⟨next, hnext, hrest⟩ := Outcome.exists_of_bind_eq_ok h
    obtain ⟨grown, hgrown, hlisting⟩ := exists_forest_of_step hf hnext
    obtain ⟨forest', hforest', hlisting'⟩ := ih hgrown hrest
    refine ⟨forest', hforest', ?_⟩
    rw [hlisting', hlisting, List.append_assoc, List.singleton_append]

theorem exists_tree_of_run (h : a.run ts = .ok v) :
    ∃ tree : ArityTree, tree.listing = ts ∧ tree.value a = .ok v := by
  obtain ⟨stack, hstack, hresult⟩ := Outcome.exists_of_bind_eq_ok h
  obtain rfl := Arithmetic.eq_of_result_eq_ok hresult
  obtain ⟨forest, hforest, hlisting⟩ := exists_forest_of_foldlM List.Forall₂.nil hstack
  cases hforest with
  | @cons tree v below rest hv hrest =>
    cases hrest
    exact ⟨tree, hlisting, hv⟩

/-- A token on a forest, without computing. -/
def grow (forest : List ArityTree) (t : Token) : Option (List ArityTree) :=
  if hnumber : t.kind = .number then
    if readable : (Numeral.double? t.text).isSome then some (number t.text readable :: forest)
    else none
  else if hidentifier : t.kind = .identifier then
    match FunctionName.ofName? t.text, forest with
    | some f, argument :: below => some (call f argument :: below)
    | _, _ => none
  else
    match Operator.ofSymbol? t.text, forest with
    | some .reciprocal, operand :: below =>
      some (reciprocal ⟨t.kind, hnumber, hidentifier⟩ operand :: below)
    | some (.binary op), right :: left :: below =>
      some (binary ⟨t.kind, hnumber, hidentifier⟩ op left right :: below)
    | _, _ => none

/-- A listing is read back as its tree, above any forest. -/
theorem foldlM_grow_listing (tree : ArityTree) (forest : List ArityTree) :
    tree.listing.foldlM grow forest = some (tree :: forest) := by
  induction tree generalizing forest with
  | number text readable =>
    change (grow forest (Token.number text)).bind some = _
    simp [grow, Token.number, readable]
  | call f argument ih =>
    rw [listing, List.foldlM_append, ih]
    change (grow (argument :: forest) (Token.identifier f.name)).bind some = _
    simp [grow, Token.identifier]
  | reciprocal kind operand ih =>
    rw [listing, List.foldlM_append, ih]
    change (grow (operand :: forest) ⟨kind, Operator.reciprocal.symbol⟩).bind some = _
    simp [grow, kind.2]
  | binary kind op left right ihl ihr =>
    rw [listing, List.append_assoc, List.foldlM_append, ihl]
    change List.foldlM grow (left :: forest) (right.listing ++ _) = _
    rw [List.foldlM_append, ihr]
    change (grow (right :: left :: forest) ⟨kind, (Operator.binary op).symbol⟩).bind some = _
    simp [grow, kind.2]

theorem listing_injective : Function.Injective listing := by
  intro tree other h
  have htree := foldlM_grow_listing tree []
  have hother := foldlM_grow_listing other []
  rw [h, hother] at htree
  exact (List.cons.inj (Option.some.inj htree)).1.symm

/-- Tokens have a value exactly if they list a tree with that value, and no two trees have the same
listing. -/
theorem run_eq_ok_iff (a : Arithmetic) (ts : List Token) (v : Float) :
    (a.run ts = .ok v ↔ ∃ tree : ArityTree, tree.listing = ts ∧ tree.value a = .ok v) ∧
      ∀ tree other : ArityTree, tree.listing = ts → other.listing = ts → tree = other := by
  refine ⟨⟨exists_tree_of_run, ?_⟩, ?_⟩
  · rintro ⟨tree, rfl, hv⟩
    rw [tree.computes_listing.run_eq, hv]
  · intro tree other htree hother
    exact listing_injective (htree.trans hother.symm)

end ArityTree
end Calculator
