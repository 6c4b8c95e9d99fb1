import Mathlib.Data.List.Chain
import Calculator.Proofs.Postfix.Nesting
import Calculator.Token.Scan

/-!
# The order of waiting operators

Open parentheses and names cut the stack into stretches of operators. An operator is put on the
stack when everything above the nearest barrier that binds at least as tightly has passed, except
that a power stays below a power and that the signs before an operand release nothing; these all
have the highest precedence. So in each stretch the precedences ascend from the bottom to the top,
strictly until the highest one is reached. `ascending_step` says that each token keeps this order,
and `read_ascends` what it makes of the stretches at every token of a conversion.
-/

namespace Calculator.Postfix

namespace Pending

/-- An open parenthesis or a name, which operators behind it do not release. -/
def isBarrier : Pending → Bool
  | .opening | .call _ => true
  | .operator _ | .negation => false

/-- The entry was put on the stack for the token. -/
def StandsFor : Pending → Token → Prop
  | .opening, t => t.kind = .opening
  | .call name, t => t = Token.identifier name
  | .operator symbol, t => t = Token.operator symbol
  | .negation, t => t = Token.operator ['-']

/-- The symbol belongs to an operator, if the entry has one. -/
def Known : Pending → Prop
  | .operator symbol => ∃ op : Operator, symbol = op.symbol
  | .opening | .call _ | .negation => True

/-- Of two operators next to each other the upper one binds more tightly, or both bind like a
power. -/
def Above (upper lower : Pending) : Prop :=
  ∀ p ∈ upper.precedence?, ∀ q ∈ lower.precedence?, q < p ∨ q = 4 ∧ p = 4

/-- The precedence of an operator; barriers have none. -/
def strength (entry : Pending) : Nat := entry.precedence?.getD 0

def sums : List Pending := [.operator ['+'], .operator ['-']]

def products : List Pending := [.operator ['*'], .operator ['/']]

/-- The power, and the signs that stand before their operand. -/
def powers : List Pending := [.operator ['^'], .operator ['1', '/'], .negation]

variable {upper lower entry : Pending} {p q : Nat}

@[simp] theorem precedence?_operator (op : Operator) :
    precedence? (.operator op.symbol) = some op.precedence := by
  simp [precedence?]

theorem precedence?_eq_strength (h : entry.isBarrier = false) :
    entry.precedence? = some entry.strength := by
  cases entry with
  | opening | call => cases h
  | operator | negation => rfl

theorem precedence_le_four (h : lower.Known) (hq : lower.precedence? = some q) : q ≤ 4 := by
  cases lower with
  | opening | call => cases hq
  | negation =>
    obtain rfl := Option.some.inj hq
    exact Nat.le_refl 4
  | operator symbol =>
    obtain ⟨op, rfl⟩ := h
    rw [precedence?_operator] at hq
    obtain rfl := Option.some.inj hq
    rcases op with op | _
    · cases op <;> decide
    · decide

theorem above_of_isBarrier (h : upper.precedence? = none) : upper.Above lower := by
  intro p hp
  rw [h] at hp
  cases hp

/-- What binds like a power may stand on every operator. -/
theorem above_of_power (h : upper.precedence? = some 4) (hlower : lower.Known) :
    upper.Above lower := by
  intro p hp q hq
  obtain rfl := Option.some.inj (h.symm.trans hp)
  have hle := precedence_le_four hlower hq
  omega

/-- An operator stands on what it does not release. -/
theorem above_of_givesWay {op : BinaryOperator} (h : lower.givesWay (.binary op) = false) :
    (operator (Operator.binary op).symbol).Above lower := by
  intro p hp q hq
  rw [precedence?_operator] at hp
  obtain rfl := Option.some.inj hp
  rw [givesWay, Option.mem_def.1 hq] at h
  simp only [Bool.or_eq_false_iff, decide_eq_false_iff_not, Nat.not_lt, Bool.and_eq_false_iff,
    beq_eq_false_iff_ne, Bool.not_eq_false'] at h
  obtain ⟨hle, hne | hright⟩ := h
  · exact .inl (by omega)
  · -- Only the power associates to the right, and its precedence is the highest.
    obtain rfl : op = .pow := by simpa [Operator.associatesRight] using hright
    change q ≤ 4 at hle
    change q < 4 ∨ q = 4 ∧ 4 = 4
    omega

theorem strength_of_mem : (∀ e ∈ sums, e.strength = 2) ∧ (∀ e ∈ products, e.strength = 3) ∧
    ∀ e ∈ powers, e.strength = 4 := by
  decide

theorem mem_of_known (h : entry.Known) (hb : entry.isBarrier = false) :
    entry ∈ sums ∨ entry ∈ products ∨ entry ∈ powers := by
  cases entry with
  | opening | call => cases hb
  | negation => exact .inr (.inr (by decide))
  | operator symbol =>
    obtain ⟨op, rfl⟩ := h
    rcases op with op | _
    · cases op <;> decide
    · decide

end Pending

/-- Neighbours on the stack ascend, and every operator on it is known. -/
structure Ascending (stack : List Pending) : Prop where
  chain : stack.IsChain Pending.Above
  known : ∀ entry ∈ stack, entry.Known

variable {stack stack' below stretch : List Pending} {entry : Pending}
variable {previous last : Option Kind} {t : Token} {ts passed : List Token}

theorem ascending_nil : Ascending [] := ⟨.nil, nofun⟩

theorem Ascending.within (h : Ascending stack) (hstretch : stretch <:+: stack) :
    Ascending stretch := by
  have hchain := List.IsChain.infix h.chain hstretch
  exact ⟨hchain, fun entry he => h.known entry (hstretch.mem he)⟩

theorem Ascending.suffix (h : Ascending stack) (hbelow : below <:+ stack) : Ascending below :=
  h.within hbelow.isInfix

theorem Ascending.cons (h : Ascending stack) (hknown : entry.Known)
    (habove : ∀ top ∈ stack.head?, entry.Above top) : Ascending (entry :: stack) := by
  refine ⟨List.isChain_cons.2 ⟨habove, h.chain⟩, ?_⟩
  intro e he
  rcases List.mem_cons.1 he with rfl | he
  · exact hknown
  · exact h.known e he

/-- A barrier begins a new stretch. -/
theorem Ascending.cons_barrier (h : Ascending stack) (hknown : entry.Known)
    (hbarrier : entry.precedence? = none) : Ascending (entry :: stack) :=
  h.cons hknown fun _ _ => Pending.above_of_isBarrier hbarrier

theorem Ascending.cons_power (h : Ascending stack) (hknown : entry.Known)
    (hpower : entry.precedence? = some 4) : Ascending (entry :: stack) :=
  h.cons hknown fun _ ht => Pending.above_of_power hpower (h.known _ (List.mem_of_mem_head? ht))

theorem ascending_stepOperator (h : Ascending stack) (previous : Option Kind) (op : Operator) :
    Ascending (stepOperator stack previous op.symbol).2 := by
  unfold stepOperator
  split
  · exact h.cons_power trivial rfl
  · rw [Operator.ofSymbol?_symbol]
    cases op with
    | reciprocal => exact h.cons_power ⟨.reciprocal, rfl⟩ rfl
    | binary op =>
      refine (h.suffix (List.dropWhile_suffix _)).cons ⟨.binary op, rfl⟩ fun top ht => ?_
      have hkept := List.head?_dropWhile_not (Pending.givesWay (.binary op)) stack
      rw [ht] at hkept
      exact Pending.above_of_givesWay (by simpa using hkept)

theorem afterClosing_suffix (stack : List Pending) : (afterClosing stack).2 <:+ stack := by
  cases stack with
  | nil => exact List.suffix_rfl
  | cons top outer =>
    cases top with
    | call name => exact List.suffix_cons _ _
    | opening | operator | negation => exact List.suffix_rfl

/-- A closing parenthesis only takes entries off the stack. -/
theorem suffix_of_stepClosing (hstep : stepClosing stack = some (passed, stack')) :
    stack' <:+ stack := by
  by_cases ho : Pending.opening ∈ stack
  · obtain ⟨inner, outer, rfl, hinner⟩ := List.eq_append_cons_of_mem ho
    rw [stepClosing_append hinner] at hstep
    obtain ⟨-, rfl⟩ := Prod.mk.inj (Option.some.inj hstep)
    exact (afterClosing_suffix outer).trans
      ((List.suffix_cons _ _).trans (List.suffix_append _ _))
  · rw [stepClosing_eq_none ho] at hstep
    cases hstep

/-- A token keeps the order of the stack, if it is no unknown operator. -/
theorem ascending_step (ht : t.kind = .operator → (Operator.ofSymbol? t.text).isSome)
    (h : Ascending stack) (hstep : step stack previous t = some (passed, stack')) :
    Ascending stack' := by
  unfold step at hstep
  cases hkind : t.kind with
  | number =>
    rw [hkind] at hstep
    obtain ⟨-, rfl⟩ := Prod.mk.inj (Option.some.inj hstep)
    exact h
  | identifier =>
    rw [hkind] at hstep
    obtain ⟨-, rfl⟩ := Prod.mk.inj (Option.some.inj hstep)
    exact h.cons_barrier trivial rfl
  | operator =>
    rw [hkind] at hstep
    obtain ⟨op, hop⟩ := Option.isSome_iff_exists.1 (ht hkind)
    have hstack : (stepOperator stack previous t.text).2 = stack' :=
      congrArg Prod.snd (Option.some.inj hstep)
    rw [← hstack, ← Operator.symbol_of_ofSymbol? hop]
    exact ascending_stepOperator h previous op
  | opening =>
    rw [hkind] at hstep
    obtain ⟨-, rfl⟩ := Prod.mk.inj (Option.some.inj hstep)
    exact h.cons_barrier trivial rfl
  | closing =>
    rw [hkind] at hstep
    exact h.suffix (suffix_of_stepClosing hstep)

theorem mem_stepOperator {symbol : Text} {e : Pending}
    (he : e ∈ (stepOperator stack previous symbol).2) :
    e ∈ stack ∨ e.StandsFor (Token.operator symbol) := by
  unfold stepOperator at he
  split at he
  · next hneg =>
    rcases List.mem_cons.1 he with rfl | he
    · simp only [isNegation, Bool.and_eq_true, beq_iff_eq] at hneg
      exact .inr (by rw [hneg.1, Pending.StandsFor])
    · exact .inl he
  · split at he
    · rcases List.mem_cons.1 he with rfl | he
      · exact .inr rfl
      · exact .inl ((List.dropWhile_suffix _).mem he)
    · rcases List.mem_cons.1 he with rfl | he
      · exact .inr rfl
      · exact .inl he

/-- What a token leaves on the stack was there before or stands for the token, which then is no
closing parenthesis. -/
theorem mem_step (hstep : step stack previous t = some (passed, stack')) {e : Pending}
    (he : e ∈ stack') : e ∈ stack ∨ t.kind ≠ .closing ∧ e.StandsFor t := by
  obtain ⟨kind, text⟩ := t
  cases kind with
  | number =>
    obtain ⟨-, rfl⟩ := Prod.mk.inj (Option.some.inj hstep)
    exact .inl he
  | identifier =>
    obtain ⟨-, rfl⟩ := Prod.mk.inj (Option.some.inj hstep)
    rcases List.mem_cons.1 he with rfl | he
    · exact .inr ⟨Kind.noConfusion, rfl⟩
    · exact .inl he
  | operator =>
    have hstack : (stepOperator stack previous text).2 = stack' :=
      congrArg Prod.snd (Option.some.inj hstep)
    rw [← hstack] at he
    exact (mem_stepOperator he).imp_right fun h => ⟨Kind.noConfusion, h⟩
  | opening =>
    obtain ⟨-, rfl⟩ := Prod.mk.inj (Option.some.inj hstep)
    rcases List.mem_cons.1 he with rfl | he
    · exact .inr ⟨Kind.noConfusion, rfl⟩
    · exact .inl he
  | closing => exact .inl ((suffix_of_stepClosing hstep).mem he)

/-- What each token of a stretch keeps holds of the stack behind the stretch. -/
theorem read_preserves {P : List Pending → Prop}
    (hstep : ∀ t ∈ ts, ∀ stack previous passed stack', P stack →
      step stack previous t = some (passed, stack') → P stack')
    (h : P stack) (hread : read stack previous ts = some (passed, stack', last)) : P stack' := by
  induction ts generalizing stack previous passed with
  | nil =>
    obtain ⟨-, hstack⟩ := Prod.mk.inj (Option.some.inj hread)
    exact (Prod.mk.inj hstack).1 ▸ h
  | cons t ts ih =>
    cases hfirst : step stack previous t with
    | none => simp [read, hfirst] at hread
    | some r =>
      obtain ⟨now, next⟩ := r
      rw [read_cons hfirst] at hread
      obtain ⟨⟨later, left⟩, hrest, heq⟩ := Option.map_eq_some_iff.1 hread
      obtain ⟨-, rfl⟩ := Prod.mk.inj heq
      exact ih (fun u hu => hstep u (List.mem_cons_of_mem t hu))
        (hstep t List.mem_cons_self _ _ _ _ h hfirst) hrest

/-- Whatever waits on the stack stands for one of the tokens read. -/
theorem standsFor_of_read (hread : read [] none ts = some (passed, stack, last)) :
    ∀ e ∈ stack, ∃ t ∈ ts, t.kind ≠ .closing ∧ e.StandsFor t := by
  have hnew : ∀ t ∈ ts, ∀ stack previous passed stack',
      (∀ e ∈ stack, ∃ u ∈ ts, u.kind ≠ .closing ∧ e.StandsFor u) →
      step stack previous t = some (passed, stack') →
      ∀ e ∈ stack', ∃ u ∈ ts, u.kind ≠ .closing ∧ e.StandsFor u := by
    intro t ht _ _ _ _ h hstep e he
    rcases mem_step hstep he with hold | hnew
    · exact h e hold
    · exact ⟨t, ht, hnew⟩
  exact read_preserves hnew (fun e he => absurd he List.not_mem_nil) hread

/-- From the top downwards: operators that bind like a power, then at most one product or quotient,
then at most one sum or difference. -/
def Layered (stretch : List Pending) : Prop :=
  ∃ powers product sum, stretch = powers ++ (product ++ sum) ∧ powers ⊆ Pending.powers ∧
    (product ⊆ Pending.products ∧ product.length ≤ 1) ∧ (sum ⊆ Pending.sums ∧ sum.length ≤ 1)

/-- Between barriers the precedences ascend throughout, not only between neighbours. -/
theorem Ascending.pairwise (h : Ascending stretch) (hb : ∀ e ∈ stretch, e.isBarrier = false) :
    stretch.Pairwise fun upper lower =>
      lower.strength < upper.strength ∨ lower.strength = 4 ∧ upper.strength = 4 := by
  have htrans : Trans (fun p q : Nat => q < p ∨ q = 4 ∧ p = 4)
      (fun p q : Nat => q < p ∨ q = 4 ∧ p = 4) (fun p q : Nat => q < p ∨ q = 4 ∧ p = 4) :=
    ⟨fun h h' => by omega⟩
  have hchain : (stretch.map Pending.strength).IsChain fun p q => q < p ∨ q = 4 ∧ p = 4 := by
    refine (List.isChain_map _).2 (h.chain.imp_of_mem_imp fun upper lower hu hl habove => ?_)
    exact habove _ (Pending.precedence?_eq_strength (hb upper hu)) _
      (Pending.precedence?_eq_strength (hb lower hl))
  exact List.pairwise_map.1 hchain.pairwise

theorem layered_of_pairwise (hknown : ∀ e ∈ stretch, e.Known)
    (hb : ∀ e ∈ stretch, e.isBarrier = false)
    (h : stretch.Pairwise fun upper lower =>
      lower.strength < upper.strength ∨ lower.strength = 4 ∧ upper.strength = 4) :
    Layered stretch := by
  induction stretch with
  | nil => exact ⟨[], [], [], rfl, nofun, ⟨nofun, Nat.zero_le 1⟩, nofun, Nat.zero_le 1⟩
  | cons e rest ih =>
    obtain ⟨hsums, hproducts, hpowers⟩ := Pending.strength_of_mem
    obtain ⟨htop, hrest⟩ := List.pairwise_cons.1 h
    obtain ⟨powers, product, sum, rfl, hp, ⟨hq, hqlen⟩, hr, hrlen⟩ :=
      ih (fun x hx => hknown x (List.mem_cons_of_mem e hx))
        (fun x hx => hb x (List.mem_cons_of_mem e hx)) hrest
    -- Nothing below a sum or a product binds as tightly as it does.
    have hnil {l : List Pending} {k : Nat} (hl : l ⊆ powers ++ (product ++ sum))
        (hk : ∀ x ∈ l, x.strength = k) (he : e.strength < 4) (hle : e.strength ≤ k) : l = [] := by
      refine List.eq_nil_iff_forall_not_mem.2 fun x hx => ?_
      have hlt := htop x (hl hx)
      rw [hk x hx] at hlt
      omega
    have hpstrong : ∀ x ∈ powers, x.strength = 4 := fun x hx => hpowers x (hp hx)
    have hqstrong : ∀ x ∈ product, x.strength = 3 := fun x hx => hproducts x (hq hx)
    have hrstrong : ∀ x ∈ sum, x.strength = 2 := fun x hx => hsums x (hr hx)
    rcases Pending.mem_of_known (hknown e List.mem_cons_self) (hb e List.mem_cons_self) with
      he | he | he
    · have hstrength := hsums e he
      obtain rfl := hnil (by simp) hpstrong (by omega) (by omega)
      obtain rfl := hnil (by simp) hqstrong (by omega) (by omega)
      obtain rfl := hnil (by simp) hrstrong (by omega) (by omega)
      exact ⟨[], [], [e], rfl, nofun, ⟨nofun, Nat.zero_le 1⟩, by simpa using he, Nat.le_refl 1⟩
    · have hstrength := hproducts e he
      obtain rfl := hnil (by simp) hpstrong (by omega) (by omega)
      obtain rfl := hnil (by simp) hqstrong (by omega) (by omega)
      exact ⟨[], [e], sum, rfl, nofun, ⟨by simpa using he, Nat.le_refl 1⟩, hr, hrlen⟩
    · exact ⟨e :: powers, product, sum, rfl, List.cons_subset.2 ⟨he, hp⟩, ⟨hq, hqlen⟩, hr, hrlen⟩

/-- Wherever a conversion has read tokens without an unknown operator, the precedences ascend from
the bottom to the top of each stretch of the stack that holds no barrier, strictly as long as they
are below that of a power. So a stretch holds at most one sum, at most one product above it, and
then only powers and signs before an operand; and so does what is left of it while a token releases
entries. Nothing on the stack stands for a closing parenthesis, and as many opening ones wait as are
open in the tokens read. -/
theorem read_ascends {before : List Token}
    (hsymbols : ∀ t ∈ before, t.kind = .operator → (Operator.ofSymbol? t.text).isSome)
    (hread : read [] none before = some (passed, stack, last)) :
    (∀ behind, ofInfix? (before ++ behind) = (convertFrom stack last behind).map (passed ++ ·)) ∧
    (∀ stretch, stretch <:+: stack → (∀ e ∈ stretch, e.isBarrier = false) →
      (stretch.Pairwise fun upper lower => lower.strength ≤ upper.strength ∧
        (lower.strength < 4 → lower.strength < upper.strength)) ∧ Layered stretch) ∧
    (∀ e ∈ stack, ∃ t ∈ before, t.kind ≠ .closing ∧ e.StandsFor t) ∧
    stack.count .opening + (before.map Token.kind).count .closing =
      (before.map Token.kind).count .opening := by
  have hascending : Ascending stack :=
    read_preserves (fun t ht _ _ _ _ h hstep => ascending_step (hsymbols t ht) h hstep)
      ascending_nil hread
  refine ⟨fun behind => convertFrom_append hread behind, ?_, ?_, ?_⟩
  · intro stretch hstretch hb
    have hpairwise := (hascending.within hstretch).pairwise hb
    refine ⟨hpairwise.imp fun h => by omega, ?_⟩
    exact layered_of_pairwise (hascending.within hstretch).known hb hpairwise
  · exact standsFor_of_read hread
  · have hcount := count_opening_read [] none before
    rw [hread, Option.map_some] at hcount
    have hopen := ((openAfter_eq_some_iff (by decide)).1 hcount.symm).2
    simpa using hopen.symm

/-- Behind `2+3*-4^1/(5-` four operators wait on a sum below the parenthesis and one above it. -/
theorem read_ascends_powers :
    Layered [.operator ['1', '/'], .operator ['^'], .negation, .operator ['*'],
        .operator ['+']] ∧
      Layered [.operator ['-']] := by
  let before := [Token.number ['2'], Token.binary .add, Token.number ['3'], Token.binary .mul,
    Token.binary .sub, Token.number ['4'], Token.binary .pow, Token.reciprocal, Token.opening,
    Token.number ['5'], Token.binary .sub]
  have hread : read [] none before = some ([Token.number ['2'], Token.number ['3'],
      Token.number ['0'], Token.number ['4'], Token.number ['5']],
      [.operator ['-'], .opening, .operator ['1', '/'], .operator ['^'], .negation,
        .operator ['*'], .operator ['+']], some .operator) := by decide
  have hstretches := (read_ascends (by decide) hread).2.1
  exact ⟨(hstretches _ ⟨[.operator ['-'], .opening], [], rfl⟩ (by decide)).2,
    (hstretches _ ⟨[], _, rfl⟩ (by decide)).2⟩

end Calculator.Postfix
