import Calculator.Proofs.Grammar.Derivation
import Calculator.Proofs.Postfix.Reading

/-!
# Expressions in postfix order

An expression is read above a stack whose top does not give way to its operators. What it leaves
above that stack are operators that bind at least as tightly as its own level, so the next operator
of a looser level releases all of them and nothing below. `ReadsFrom` is this contract for one stack
and `ReadsAs` for every stack at rest; each form of expression keeps it, and `ofInfix?_tokens` is
the conversion of a whole expression.
-/

namespace Calculator

/-- The least precedence of an operator outside parentheses; an atom has none there. -/
def Level.strength : Level → Nat
  | .expression => 2
  | .term => 3
  | .factor => 4
  | .atom => 5

namespace Postfix

/-- An operator or a negation of at least the given precedence. -/
def Pending.Binds (strength : Nat) (entry : Pending) : Prop :=
  ∃ p, entry.precedence? = some p ∧ strength ≤ p

/-- The top of the stack is no name, and no operator of at least the given precedence releases
it. -/
def Rests (strength : Nat) (stack : List Pending) : Prop :=
  ∀ top ∈ stack.head?, (∀ name, top ≠ .call name) ∧
    ∀ op : BinaryOperator, strength ≤ (Operator.binary op).precedence →
      top.givesWay (.binary op) = false

/-- From the given stack the tokens are read to the end of an operand; what passed and what waits
above that stack make up the listing. -/
def ReadsFrom (stack : List Pending) (previous : Option Kind) (strength : Nat)
    (tokens listing : List Token) : Prop :=
  ∃ passed pending last, read stack previous tokens = some (passed, pending ++ stack, last) ∧
    isNegation last ['-'] = false ∧ (∀ entry ∈ pending, entry.Binds strength) ∧
    passed ++ release pending = listing

/-- The tokens are read as an operand from any stack at rest where an operand may begin. -/
def ReadsAs (strength : Nat) (tokens listing : List Token) : Prop :=
  ∀ stack previous, Rests strength stack → isNegation previous ['-'] = true →
    ReadsFrom stack previous strength tokens listing

variable {p q r : Nat} {stack pending : List Pending} {previous : Option Kind} {entry : Pending}
variable {ts us listing listing' : List Token}

theorem Pending.Binds.mono (h : entry.Binds q) (hpq : p ≤ q) : entry.Binds p := by
  obtain ⟨k, hk, hq⟩ := h
  exact ⟨k, hk, Nat.le_trans hpq hq⟩

theorem Pending.Binds.ne_opening (h : entry.Binds q) : entry ≠ .opening := by
  rintro rfl
  obtain ⟨k, hk, _⟩ := h
  cases hk

theorem Pending.Binds.givesWay {op : BinaryOperator} (h : entry.Binds q)
    (hq : (Operator.binary op).precedence < q ∨
      (Operator.binary op).precedence ≤ q ∧ (Operator.binary op).associatesRight = false) :
    entry.givesWay (.binary op) = true := by
  obtain ⟨k, hk, hle⟩ := h
  simp only [Pending.givesWay, hk, Bool.or_eq_true, decide_eq_true_eq, Bool.and_eq_true,
    beq_iff_eq, Bool.not_eq_true']
  rcases hq with hlt | ⟨hle', hassoc⟩
  · exact .inl (by omega)
  · by_cases heq : k = (Operator.binary op).precedence
    · exact .inr ⟨heq, hassoc⟩
    · exact .inl (by omega)

theorem Rests.mono (h : Rests p stack) (hpq : p ≤ q) : Rests q stack :=
  fun top ht => ⟨(h top ht).1, fun op hop => (h top ht).2 op (Nat.le_trans hpq hop)⟩

theorem rests_nil : Rests p [] := fun _ ht => nomatch ht

theorem rests_opening : Rests p (.opening :: stack) := by
  intro top ht
  obtain rfl := Option.some.inj ht
  exact ⟨fun _ => Pending.noConfusion, fun _ _ => rfl⟩

/-- An operator is not released by operators that bind more tightly, nor by a power if it binds like
one. -/
theorem rests_cons (he : entry.precedence? = some p) (hq : p < q ∨ p = 4 ∧ q = 4) :
    Rests q (entry :: stack) := by
  intro top ht
  obtain rfl := Option.some.inj ht
  refine ⟨?_, ?_⟩
  · rintro name rfl
    cases he
  · intro op hop
    simp only [Pending.givesWay, he, Bool.or_eq_false_iff, decide_eq_false_iff_not,
      Bool.and_eq_false_iff, beq_eq_false_iff_ne]
    cases op <;> simp only [Operator.precedence] at hop ⊢
    case pow => exact ⟨by omega, .inr rfl⟩
    all_goals exact ⟨by omega, .inl (by omega)⟩

theorem isNegation_eq_false (h : isNegation previous ['-'] = false) (symbol : Text) :
    isNegation previous symbol = false := by
  simp only [isNegation, beq_self_eq_true, Bool.true_and] at h
  rw [isNegation, h, Bool.and_false]

/-- A binary operator releases exactly the operators that wait above a stack whose top does not give
way to it. -/
theorem step_binary {op : BinaryOperator} (hlast : isNegation previous ['-'] = false)
    (hpending : ∀ entry ∈ pending, entry.givesWay (.binary op) = true)
    (htop : ∀ top ∈ stack.head?, top.givesWay (.binary op) = false) :
    step (pending ++ stack) previous (Token.binary op) =
      some (release pending, .operator (Operator.binary op).symbol :: stack) := by
  have htake : stack.takeWhile (Pending.givesWay (.binary op)) = [] := by
    cases stack with
    | nil => rfl
    | cons top outer => simp [htop top rfl]
  have hdrop : stack.dropWhile (Pending.givesWay (.binary op)) = stack := by
    cases stack with
    | nil => rfl
    | cons top outer => simp [htop top rfl]
  simp only [step, Token.binary, Token.operator, stepOperator, isNegation_eq_false hlast,
    Operator.ofSymbol?_symbol, List.takeWhile_append_of_pos hpending,
    List.dropWhile_append_of_pos hpending, htake, hdrop, List.append_nil, Bool.false_eq_true,
    if_false]

theorem step_reciprocal (stack : List Pending) (previous : Option Kind) :
    step stack previous Token.reciprocal = some ([], .operator ['1', '/'] :: stack) := rfl

/-- In parentheses an expression passes as a whole, and then the name in front of them. -/
theorem ReadsAs.read_parenthesized (h : ReadsAs p ts listing) (stack : List Pending)
    (previous : Option Kind) :
    read stack previous (Token.opening :: (ts ++ [Token.closing])) =
      some (listing ++ (afterClosing stack).1, (afterClosing stack).2, some .closing) := by
  obtain ⟨passed, pending, last, hread, hlast, hbinds, hlisting⟩ :=
    h (.opening :: stack) (some .opening) rests_opening rfl
  have hopen : step stack previous Token.opening = some ([], .opening :: stack) := rfl
  have hclose : step (pending ++ .opening :: stack) last Token.closing =
      some (release pending ++ (afterClosing stack).1, (afterClosing stack).2) :=
    stepClosing_append (fun ho => (hbinds _ ho).ne_opening rfl) stack
  rw [read_cons hopen]
  change ((read (.opening :: stack) (some .opening) _).map _) = _
  rw [read_append_eq_some hread (read_singleton hclose), ← hlisting, List.append_assoc]
  rfl

namespace ReadsFrom

theorem mono (h : ReadsFrom stack previous q ts listing) (hpq : p ≤ q) :
    ReadsFrom stack previous p ts listing := by
  obtain ⟨passed, pending, last, hread, hlast, hbinds, hlisting⟩ := h
  exact ⟨passed, pending, last, hread, hlast, fun e he => (hbinds e he).mono hpq, hlisting⟩

theorem number (text : Text) :
    ReadsFrom stack previous p [Token.number text] [Token.number text] :=
  ⟨[Token.number text], [], some .number, rfl, rfl, nofun, rfl⟩

theorem group (h : ReadsAs p ts listing) (hstack : ∀ top ∈ stack.head?, ∀ name, top ≠ .call name) :
    ReadsFrom stack previous q (Token.opening :: (ts ++ [Token.closing])) listing := by
  have hread := h.read_parenthesized stack previous
  rw [afterClosing_of_ne_call hstack, List.append_nil] at hread
  exact ⟨listing, [], some .closing, hread, rfl, nofun, List.append_nil _⟩

theorem call (name : Text) (h : ReadsAs p ts listing) :
    ReadsFrom stack previous q
      (Token.identifier name :: Token.opening :: (ts ++ [Token.closing]))
      (listing ++ [Token.identifier name]) := by
  have hname : step stack previous (Token.identifier name) = some ([], .call name :: stack) := rfl
  have hread := h.read_parenthesized (.call name :: stack) (some .identifier)
  refine ⟨listing ++ [Token.identifier name], [], some .closing, ?_, rfl, nofun,
    List.append_nil _⟩
  rw [read_cons hname]
  change ((read (.call name :: stack) (some .identifier) _).map _) = _
  rw [hread]
  rfl

/-- A sign in front of a factor waits above the stack and passes after the factor. -/
theorem leading {t : Token} {passed : List Token}
    (hstep : step stack previous t = some (passed, entry :: stack))
    (ht : t.kind = .operator) (hentry : entry.precedence? = some 4) (h : ReadsAs 4 ts listing) :
    ReadsFrom stack previous 4 (t :: ts) (passed ++ (listing ++ release [entry])) := by
  obtain ⟨later, pending, last, hread, hlast, hbinds, hlisting⟩ :=
    h (entry :: stack) (some .operator) (rests_cons hentry (.inr ⟨rfl, rfl⟩)) rfl
  refine ⟨passed ++ later, pending ++ [entry], last, ?_, hlast, ?_, ?_⟩
  · rw [read_cons hstep, ht, hread, Option.map_some]
    simp
  · intro e he
    rcases List.mem_append.1 he with he | he
    · exact hbinds e he
    · obtain rfl := List.mem_singleton.1 he
      exact ⟨4, hentry, Nat.le_refl _⟩
  · rw [release_append, ← hlisting]
    simp only [List.append_assoc]

/-- Two operands around an operator: the left one has passed before the operator waits, and the
right one is read above it. -/
theorem binary {op : BinaryOperator} (hp : (Operator.binary op).precedence = p)
    (hq : p < q ∨ p ≤ q ∧ (Operator.binary op).associatesRight = false)
    (hr : p < r ∨ p = 4 ∧ r = 4)
    (htop : ∀ top ∈ stack.head?, top.givesWay (.binary op) = false)
    (left : ReadsFrom stack previous q ts listing) (right : ReadsAs r us listing') :
    ReadsFrom stack previous p (ts ++ Token.binary op :: us)
      (listing ++ listing' ++ [Token.binary op]) := by
  subst p
  let entry : Pending := .operator (Operator.binary op).symbol
  have hentry : entry.precedence? = some (Operator.binary op).precedence := by
    simp [entry, Pending.precedence?]
  obtain ⟨passed, pending, last, hread, hlast, hbinds, hlisting⟩ := left
  obtain ⟨passed', pending', last', hread', hlast', hbinds', hlisting'⟩ :=
    right (entry :: stack) (some .operator) (rests_cons hentry hr) rfl
  have hop := step_binary hlast (fun e he => (hbinds e he).givesWay hq) htop
  refine ⟨passed ++ (release pending ++ passed'), pending' ++ [entry], last', ?_, hlast', ?_, ?_⟩
  · rw [read_append_of_read hread, read_cons hop]
    change ((read (entry :: stack) (some .operator) us).map _).map _ = _
    rw [hread']
    simp
  · intro e he
    rcases List.mem_append.1 he with he | he
    · exact (hbinds' e he).mono (by omega)
    · obtain rfl := List.mem_singleton.1 he
      exact ⟨_, hentry, Nat.le_refl _⟩
  · rw [release_append, ← hlisting, ← hlisting']
    simp only [List.append_assoc]
    rfl

end ReadsFrom

namespace ReadsAs

theorem mono (h : ReadsAs q ts listing) (hpq : p ≤ q) : ReadsAs p ts listing :=
  fun stack previous hs hp => (h stack previous (hs.mono hpq) hp).mono hpq

theorem binary {op : BinaryOperator} (hp : (Operator.binary op).precedence = p)
    (hq : p < q ∨ p ≤ q ∧ (Operator.binary op).associatesRight = false)
    (hr : p < r ∨ p = 4 ∧ r = 4) (left : ReadsAs q ts listing) (right : ReadsAs r us listing') :
    ReadsAs p (ts ++ Token.binary op :: us) (listing ++ listing' ++ [Token.binary op]) := by
  intro stack previous hs hprev
  have htop : ∀ top ∈ stack.head?, top.givesWay (.binary op) = false := fun top ht =>
    (hs top ht).2 op (Nat.le_of_eq hp.symm)
  exact .binary hp hq hr htop (left stack previous (hs.mono (by omega)) hprev) right

theorem ofInfix?_eq (h : ReadsAs p ts listing) : ofInfix? ts = some listing := by
  obtain ⟨passed, pending, last, hread, hlast, hbinds, hlisting⟩ := h [] none rests_nil rfl
  have hfinish : finish (pending ++ []) = some (release pending) := by
    rw [List.append_nil, finish, if_neg fun ho => (hbinds _ ho).ne_opening rfl]
  rw [ofInfix?, convertFrom_eq_read, hread, Option.bind_some]
  dsimp only
  rw [hfinish, Option.map_some, hlisting]

end ReadsAs

theorem readsAs_tokens {l : Level} (d : Derivation l) :
    ReadsAs l.strength d.tokens d.postorder := by
  -- An operand is read at the level the grammar gives it, which says what it may leave waiting.
  induction d with
  | number text => exact fun _ _ _ _ => .number text
  | call name argument ih => exact fun _ _ _ _ => .call name ih
  | group inner ih => exact fun _ _ hs _ => .group ih fun top ht => (hs top ht).1
  | single a ih => exact ih.mono (by decide)
  | power base exponent ihb ihe =>
    exact .binary rfl (.inl (by decide)) (.inr ⟨rfl, rfl⟩) ihb ihe
  | negation operand ih =>
    intro stack previous _ hp
    have hstep : step stack previous (Token.binary .sub) =
        some ([Token.number ['0']], .negation :: stack) := congrArg some (if_pos hp)
    exact .leading hstep rfl rfl ih
  | reciprocal operand ih => exact fun _ _ _ _ => .leading (step_reciprocal _ _) rfl rfl ih
  | factor f ih => exact ih.mono (by decide)
  | product left op hop right ihl ihr =>
    rcases hop with rfl | rfl <;>
      exact .binary rfl (.inr ⟨Nat.le_refl _, rfl⟩) (.inl (by decide)) ihl ihr
  | term t ih => exact ih.mono (by decide)
  | sum left op hop right ihl ihr =>
    rcases hop with rfl | rfl <;>
      exact .binary rfl (.inr ⟨Nat.le_refl _, rfl⟩) (.inl (by decide)) ihl ihr

/-- An expression is converted to its postfix listing. -/
theorem ofInfix?_tokens (d : Derivation .expression) :
    ofInfix? d.tokens = some d.postorder := (readsAs_tokens d).ofInfix?_eq

example : ofInfix? [Token.number ['2'], Token.binary .pow, Token.binary .sub, Token.number ['3'],
      Token.binary .pow, Token.number ['2'], Token.binary .mul, Token.number ['4']] =
    some [Token.number ['2'], Token.number ['0'], Token.number ['3'], Token.number ['2'],
      Token.binary .pow, Token.binary .sub, Token.binary .pow, Token.number ['4'],
      Token.binary .mul] := by decide

end Postfix
end Calculator
