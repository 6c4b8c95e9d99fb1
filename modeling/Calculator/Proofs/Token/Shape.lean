import Calculator.Proofs.Balance
import Calculator.Proofs.Outcome
import Calculator.Proofs.Token.Stretch

/-!
# The tokens of a text

A text is cut into tokens unless it holds a character that no expression has, and then the first
such character is reported. Every token is a number, a name, a known operator or a parenthesis, and
parentheses open and close along the tokens as they do along the text.
-/

namespace Calculator

/-- The characters of expressions, white space aside. -/
def isExpressionCharacter (c : Char) : Bool :=
  isDigit c || c == '.' || isLetter c || c ∈ ['+', '-', '*', '/', '^', '(', ')']

/-- The first character that no expression has. -/
def Text.foreign? (t : Text) : Option Char := t.find? fun c => !isExpressionCharacter c

namespace Kind

variable {c : Char} {k : Kind}

theorem isSome_ofChar? (c : Char) : (ofChar? c).isSome = isExpressionCharacter c := by
  unfold ofChar? isExpressionCharacter
  cases isDigit c || c == '.' with
  | true => rfl
  | false =>
    cases isLetter c with
    | true => rfl
    | false => grind

theorem mem_of_ofChar?_eq_operator (h : ofChar? c = some .operator) :
    c ∈ ['+', '-', '*', '/', '^'] := by
  unfold ofChar? at h
  grind

theorem ofChar?_eq_opening_iff : ofChar? c = some .opening ↔ c = '(' := by
  constructor
  · intro h
    unfold ofChar? at h
    grind
  · rintro rfl
    decide

theorem ofChar?_eq_closing_iff : ofChar? c = some .closing ↔ c = ')' := by
  constructor
  · intro h
    unfold ofChar? at h
    grind
  · rintro rfl
    decide

theorem openStep_ofChar? (h : ofChar? c = some k) (n : Nat) :
    openStep Kind.opening Kind.closing n k = openStep '(' ')' n c := by
  have hopening : k = .opening ↔ c = '(' := by
    rw [← ofChar?_eq_opening_iff, h, Option.some.injEq]
  have hclosing : k = .closing ↔ c = ')' := by
    rw [← ofChar?_eq_closing_iff, h, Option.some.injEq]
  simp only [openStep, hopening, hclosing]

end Kind

namespace Token

variable {c : Char} {k : Kind} {t : Token} {ts : List Token} {text : Text}

/-- The texts of the tokens with nothing between them. -/
def written (ts : List Token) : Text := (ts.map Token.text).flatten

/-- A number or a name of any text, an operator by its symbol, or a parenthesis. -/
inductive Proper : Token → Prop
  | number (text : Text) : Proper (number text)
  | identifier (name : Text) : Proper (identifier name)
  | operator (op : Operator) : Proper (operator op.symbol)
  | opening : Proper opening
  | closing : Proper closing

theorem proper_singleton (h : Kind.ofChar? c = some k) : Proper ⟨k, [c]⟩ := by
  cases k with
  | number => exact .number [c]
  | identifier => exact .identifier [c]
  | operator =>
    have hc := Kind.mem_of_ofChar?_eq_operator h
    simp only [List.mem_cons, List.not_mem_nil, or_false] at hc
    rcases hc with rfl | rfl | rfl | rfl | rfl
    · exact .operator (.binary .add)
    · exact .operator (.binary .sub)
    · exact .operator (.binary .mul)
    · exact .operator (.binary .div)
    · exact .operator (.binary .pow)
  | opening =>
    obtain rfl := Kind.ofChar?_eq_opening_iff.1 h
    exact .opening
  | closing =>
    obtain rfl := Kind.ofChar?_eq_closing_iff.1 h
    exact .closing

/-- A character stands alone or lengthens a run. -/
theorem extend_eq (k : Kind) (c : Char) (ts : List Token) :
    extend k c ts = ⟨k, [c]⟩ :: ts ∨
      ∃ run rest, ts = ⟨k, run⟩ :: rest ∧ k.runs = true ∧
        extend k c ts = ⟨k, c :: run⟩ :: rest := by
  cases ts with
  | nil => exact .inl rfl
  | cons t rest =>
    obtain ⟨kind, run⟩ := t
    by_cases h : kind = k ∧ k.runs = true
    · obtain ⟨rfl, hruns⟩ := h
      exact .inr ⟨run, rest, rfl, hruns, if_pos ⟨rfl, hruns⟩⟩
    · exact .inl (if_neg h)

theorem proper_run (h : k.runs = true) (run : Text) : Proper ⟨k, run⟩ := by
  cases k with
  | number => exact .number run
  | identifier => exact .identifier run
  | operator | opening | closing => cases h

theorem proper_extend (hc : Kind.ofChar? c = some k) (hts : ∀ t ∈ ts, t.Proper) :
    ∀ t ∈ extend k c ts, t.Proper := by
  rcases extend_eq k c ts with h | ⟨run, rest, rfl, hruns, h⟩
  · rw [h]
    exact List.forall_mem_cons.2 ⟨proper_singleton hc, hts⟩
  · rw [h]
    exact List.forall_mem_cons.2 ⟨proper_run hruns _, (List.forall_mem_cons.1 hts).2⟩

theorem openAfter_extend (k : Kind) (c : Char) (n : Nat) (ts : List Token) :
    openAfter Kind.opening Kind.closing n ((extend k c ts).map Token.kind) =
      openAfter Kind.opening Kind.closing n (k :: ts.map Token.kind) := by
  rcases extend_eq k c ts with h | ⟨run, rest, rfl, hruns, h⟩
  · rw [h]
    rfl
  · have hopening : k ≠ .opening := by
      rintro rfl
      cases hruns
    have hclosing : k ≠ .closing := by
      rintro rfl
      cases hruns
    rw [h, List.map_cons, List.map_cons, openAfter_cons_of_ne hopening hclosing n (k :: _)]

theorem exists_of_lexemes_cons (h : lexemes (c :: text) = .ok ts) :
    ∃ k us, Kind.ofChar? c = some k ∧ lexemes text = .ok us ∧ ts = extend k c us := by
  rw [lexemes] at h
  cases hk : Kind.ofChar? c with
  | none => simp [hk] at h
  | some k =>
    rw [hk] at h
    cases hus : lexemes text with
    | error fault => simp [hus, Except.map] at h
    | ok us =>
      rw [hus] at h
      exact ⟨k, us, rfl, rfl, (Except.ok.inj h).symm⟩

theorem proper_lexemes (h : lexemes text = .ok ts) : ∀ t ∈ ts, t.Proper := by
  induction text generalizing ts with
  | nil =>
    cases h
    exact List.forall_mem_nil _
  | cons c text ih =>
    obtain ⟨k, us, hk, hus, rfl⟩ := exists_of_lexemes_cons h
    exact proper_extend hk (ih hus)

theorem openAfter_lexemes (h : lexemes text = .ok ts) (n : Nat) :
    openAfter Kind.opening Kind.closing n (ts.map Token.kind) = openAfter '(' ')' n text := by
  induction text generalizing ts n with
  | nil =>
    cases h
    rfl
  | cons c text ih =>
    obtain ⟨k, us, hk, hus, rfl⟩ := exists_of_lexemes_cons h
    rw [openAfter_extend, openAfter_cons, openAfter_cons, Kind.openStep_ofChar? hk]
    congr 1
    funext m
    exact ih hus m

/-- Cutting fails exactly at the first character that no expression has. -/
theorem lexemes_eq_error_iff {fault : Fault} :
    lexemes text = .error fault ↔ ∃ c, text.foreign? = some c ∧ fault = .invalidCharacter c := by
  induction text with
  | nil => simp [lexemes, Text.foreign?]
  | cons c text ih =>
    have hc := Kind.isSome_ofChar? c
    rw [lexemes, Text.foreign?, List.find?_cons, ← hc]
    cases Kind.ofChar? c with
    | none => simp [eq_comm]
    | some k =>
      have hmap : (lexemes text).map (extend k c) = .error fault ↔ lexemes text = .error fault := by
        cases lexemes text <;> simp [Except.map]
      exact hmap.trans ih

theorem mem_joinReciprocals (h : t ∈ joinReciprocals ts) : t ∈ ts ∨ t = reciprocal := by
  fun_induction joinReciprocals ts with
  | case1 x y rest hxy ih =>
    rcases List.mem_cons.1 h with rfl | h
    · exact .inr rfl
    · exact (ih h).imp_left fun h => List.mem_cons_of_mem x (List.mem_cons_of_mem y h)
  | case2 x y rest hxy ih =>
    rcases List.mem_cons.1 h with rfl | h
    · exact .inl List.mem_cons_self
    · exact (ih h).imp_left (List.mem_cons_of_mem x)
  | case3 ts hts => exact .inl h

theorem openAfter_joinReciprocals (ts : List Token) (n : Nat) :
    openAfter Kind.opening Kind.closing n ((joinReciprocals ts).map Token.kind) =
      openAfter Kind.opening Kind.closing n (ts.map Token.kind) := by
  fun_induction joinReciprocals ts generalizing n with
  | case1 x y rest hxy ih =>
    obtain ⟨rfl, rfl⟩ := hxy
    exact ih n
  | case2 x y rest hxy ih =>
    rw [List.map_cons, List.map_cons, openAfter_cons, openAfter_cons]
    congr 1
    funext m
    exact ih m
  | case3 ts hts => rfl

theorem resolve_eq (t : Token) : t.resolve = t ∨
    t.kind = .identifier ∧ ∃ decimal, t.resolve = Token.number decimal := by
  unfold resolve
  split
  · next decimal hkind _ => exact .inr ⟨hkind, decimal, rfl⟩
  · exact .inl rfl

theorem openStep_resolve (n : Nat) (t : Token) :
    openStep Kind.opening Kind.closing n t.resolve.kind =
      openStep Kind.opening Kind.closing n t.kind := by
  rcases t.resolve_eq with h | ⟨hkind, decimal, h⟩
  · rw [h]
  · rw [h, hkind]
    rfl

theorem openAfter_resolve (ts : List Token) (n : Nat) :
    openAfter Kind.opening Kind.closing n ((ts.map resolve).map Token.kind) =
      openAfter Kind.opening Kind.closing n (ts.map Token.kind) := by
  induction ts generalizing n with
  | nil => rfl
  | cons t ts ih =>
    rw [List.map_cons, List.map_cons, List.map_cons, openAfter_cons, openAfter_cons,
      openStep_resolve]
    congr 1
    funext m
    exact ih m

theorem scan_eq_error_iff {constants : Bool} {fault : Fault} :
    scan constants text = .error fault ↔
      ∃ c, text.foreign? = some c ∧ fault = .invalidCharacter c := by
  rw [← lexemes_eq_error_iff, scan]
  cases lexemes text <;> simp [Except.map]

theorem proper_scan {constants : Bool} (h : scan constants text = .ok ts) :
    ∀ t ∈ ts, t.Proper := by
  obtain ⟨us, hus, rfl⟩ := Outcome.exists_of_map_eq_ok h
  have hjoined : ∀ t ∈ joinReciprocals us, t.Proper := by
    intro t ht
    rcases mem_joinReciprocals ht with ht | rfl
    · exact proper_lexemes hus t ht
    · exact .operator .reciprocal
  cases constants with
  | false => exact hjoined
  | true =>
    intro t ht
    obtain ⟨u, hu, rfl⟩ := List.mem_map.1 ht
    rcases u.resolve_eq with h | ⟨-, decimal, h⟩
    · rw [h]
      exact hjoined u hu
    · rw [h]
      exact .number decimal

theorem openAfter_scan {constants : Bool} (h : scan constants text = .ok ts) (n : Nat) :
    openAfter Kind.opening Kind.closing n (ts.map Token.kind) = openAfter '(' ')' n text := by
  obtain ⟨us, hus, rfl⟩ := Outcome.exists_of_map_eq_ok h
  rw [← openAfter_lexemes hus n, ← openAfter_joinReciprocals us n]
  cases constants with
  | false => rfl
  | true => exact openAfter_resolve (joinReciprocals us) n

end Token
end Calculator
