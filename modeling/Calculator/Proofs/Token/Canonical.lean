import Mathlib.Data.List.Chain
import Calculator.Proofs.Token.Shape

/-!
# Texts and their tokens determine each other

A text is its tokens written side by side, and which lists of tokens come from texts can be told
from each token and its neighbour. `Token.Lexical` lists are what a text is cut into first, runs
that stand apart and single characters; `Token.Canonical` ones are its tokens, with every `1/`
joined. Taking the joined ones apart again undoes the joining, so cutting a text and writing
canonical tokens are inverse to each other, `scan_eq_ok_iff_canonical`.
-/

namespace Calculator

/-- Two unions of ranges have nothing in common. Ranges of the second one that end before the range
at hand begins are done with, since all later ranges of the first one begin behind them. -/
def apartRanges : List (Nat × Nat) → List (Nat × Nat) → Bool
  | [], _ => true
  | (lo, hi) :: rest, ranges =>
    let later := ranges.dropWhile fun r => decide (r.2 < lo)
    later.head?.all (fun r => decide (hi < r.1)) && apartRanges rest later

theorem inRanges_dropWhile {ranges : List (Nat × Nat)} {lo n : Nat} (hlo : lo ≤ n)
    (h : inRanges ranges n = true) :
    inRanges (ranges.dropWhile fun r => decide (r.2 < lo)) n = true := by
  induction ranges with
  | nil => exact h
  | cons r rest ih =>
    by_cases hr : r.2 < lo
    · rw [List.dropWhile_cons_of_pos (by simpa using hr)]
      have hhi : ¬ n ≤ r.2 := by omega
      simp only [inRanges, hhi, decide_false, Bool.false_or, Bool.and_eq_true] at h
      exact ih h.2
    · rw [List.dropWhile_cons_of_neg (by simpa using hr)]
      exact h

theorem inRanges_eq_false_of_apartRanges {first second : List (Nat × Nat)} {n : Nat}
    (h : apartRanges first second = true) (hn : inRanges first n = true) :
    inRanges second n = false := by
  induction first generalizing second with
  | nil => cases hn
  | cons r rest ih =>
    simp only [inRanges, Bool.and_eq_true, Bool.or_eq_true, decide_eq_true_eq] at hn
    simp only [apartRanges, Bool.and_eq_true] at h
    obtain ⟨hlo, hn⟩ := hn
    rw [← Bool.not_eq_true]
    intro hsecond
    have hlater := inRanges_dropWhile hlo hsecond
    rcases hn with hhi | hrest
    · cases hd : second.dropWhile fun r' => decide (r'.2 < r.1) with
      | nil =>
        rw [hd] at hlater
        cases hlater
      | cons q qs =>
        rw [hd] at h hlater
        have hq : r.2 < q.1 := of_decide_eq_true h.1
        simp only [inRanges, Bool.and_eq_true, decide_eq_true_eq] at hlater
        omega
    · rw [ih h.2 hrest] at hlater
      cases hlater

theorem isDigit_eq_false_of_isLetter {c : Char} (h : isLetter c = true) : isDigit c = false := by
  have hapart : apartRanges letterRanges digitRanges = true := by decide +kernel
  exact inRanges_eq_false_of_apartRanges hapart h

namespace Kind

variable {c : Char}

theorem ofChar?_eq_number_iff : ofChar? c = some .number ↔ isDigit c = true ∨ c = '.' := by
  unfold ofChar?
  grind

theorem ofChar?_eq_identifier_iff : ofChar? c = some .identifier ↔ isLetter c = true := by
  constructor
  · intro h
    unfold ofChar? at h
    grind
  · intro h
    have hpoint : c ≠ '.' := by
      rintro rfl
      exact absurd h (by decide)
    rw [ofChar?, isDigit_eq_false_of_isLetter h, beq_eq_false_iff_ne.2 hpoint, h]
    rfl

theorem ofChar?_eq_operator_iff :
    ofChar? c = some .operator ↔ c ∈ ['+', '-', '*', '/', '^'] := by
  refine ⟨mem_of_ofChar?_eq_operator, fun h => ?_⟩
  simp only [List.mem_cons, List.not_mem_nil, or_false] at h
  rcases h with rfl | rfl | rfl | rfl | rfl <;> decide

end Kind

namespace Token

variable {c : Char} {k : Kind} {t u : Token} {ts us : List Token} {text : Text}

/-- A run of one class of characters, or a single character of a class that forms no runs. -/
structure Lexeme (t : Token) : Prop where
  ne_nil : t.text ≠ []
  ofChar?_of_mem : ∀ c ∈ t.text, Kind.ofChar? c = some t.kind
  length_eq_one : t.kind.runs = false → t.text.length = 1

/-- Runs and single characters, and neighbouring runs of different classes. -/
structure Lexical (ts : List Token) : Prop where
  lexeme : ∀ t ∈ ts, t.Lexeme
  apart : ts.IsChain fun t u => ¬ (t.kind = u.kind ∧ t.kind.runs = true)

theorem lexical_nil : Lexical [] := ⟨List.forall_mem_nil _, List.isChain_nil⟩

theorem lexical_cons : Lexical (t :: ts) ↔
    t.Lexeme ∧ (∀ u ∈ ts.head?, ¬ (t.kind = u.kind ∧ t.kind.runs = true)) ∧ Lexical ts := by
  constructor
  · rintro ⟨hlexeme, hapart⟩
    rw [List.forall_mem_cons] at hlexeme
    rw [List.isChain_cons] at hapart
    exact ⟨hlexeme.1, hapart.1, hlexeme.2, hapart.2⟩
  · rintro ⟨ht, hhead, hts⟩
    exact ⟨List.forall_mem_cons.2 ⟨ht, hts.lexeme⟩, List.isChain_cons.2 ⟨hhead, hts.apart⟩⟩

theorem lexeme_singleton (hc : Kind.ofChar? c = some k) : Lexeme ⟨k, [c]⟩ :=
  ⟨List.cons_ne_nil c [], List.forall_mem_singleton.2 hc, fun _ => rfl⟩

/-- A character in front lengthens a run or stands apart. -/
theorem lexical_extend (hc : Kind.ofChar? c = some k) (h : Lexical ts) :
    Lexical (extend k c ts) := by
  cases ts with
  | nil =>
    refine lexical_cons.2 ⟨lexeme_singleton hc, ?_, h⟩
    intro u hu
    cases hu
  | cons t rest =>
    rw [extend]
    split
    · next hrun =>
      obtain ⟨rfl, hruns⟩ := hrun
      obtain ⟨ht, hhead, hrest⟩ := lexical_cons.1 h
      refine lexical_cons.2 ⟨⟨List.cons_ne_nil c t.text, ?_, fun hsingle => ?_⟩, hhead, hrest⟩
      · exact List.forall_mem_cons.2 ⟨hc, ht.ofChar?_of_mem⟩
      · rw [hruns] at hsingle
        cases hsingle
    · next hrun =>
      refine lexical_cons.2 ⟨lexeme_singleton hc, ?_, h⟩
      intro u hu hsame
      obtain rfl := Option.some.inj hu
      exact hrun ⟨hsame.1.symm, hsame.2⟩

/-- The first character of a lexical list can be taken off again. -/
theorem exists_eq_extend (h : Lexical ts) (hne : ts ≠ []) :
    ∃ k c us, Kind.ofChar? c = some k ∧ Lexical us ∧ ts = extend k c us := by
  cases ts with
  | nil => exact absurd rfl hne
  | cons t us =>
    obtain ⟨ht, hhead, hus⟩ := lexical_cons.1 h
    obtain ⟨k, text⟩ := t
    cases text with
    | nil => exact absurd rfl ht.ne_nil
    | cons c more =>
      obtain ⟨hc, hmore⟩ := List.forall_mem_cons.1 ht.ofChar?_of_mem
      by_cases hsingle : more = []
      · subst hsingle
        refine ⟨k, c, us, hc, hus, ?_⟩
        rcases extend_eq k c us with hextend | ⟨run, rest, rfl, hruns, -⟩
        · exact hextend.symm
        · exact absurd ⟨rfl, hruns⟩ (hhead _ rfl)
      · have hruns : k.runs = true := by
          by_contra hruns
          have hlength := ht.length_eq_one (Bool.eq_false_iff.2 hruns)
          exact hsingle (List.length_eq_zero_iff.1 (Nat.succ.inj hlength))
        have hrun : Lexeme ⟨k, more⟩ := ⟨hsingle, hmore, fun hfalse => by
          rw [hruns] at hfalse
          cases hfalse⟩
        exact ⟨k, c, ⟨k, more⟩ :: us, hc, lexical_cons.2 ⟨hrun, hhead, hus⟩,
          (if_pos ⟨rfl, hruns⟩).symm⟩

theorem written_cons (t : Token) (ts : List Token) : written (t :: ts) = t.text ++ written ts := rfl

theorem written_extend (k : Kind) (c : Char) (ts : List Token) :
    written (extend k c ts) = c :: written ts := by
  rcases extend_eq k c ts with h | ⟨run, rest, rfl, -, h⟩
  · rw [h]
    rfl
  · rw [h]
    rfl

/-- A text is cut into the only lexical list that is written so. -/
theorem lexemes_eq_ok_iff : lexemes text = .ok ts ↔ Lexical ts ∧ written ts = text := by
  induction text generalizing ts with
  | nil =>
    constructor
    · intro h
      cases h
      exact ⟨lexical_nil, rfl⟩
    · rintro ⟨h, hwritten⟩
      by_cases hne : ts = []
      · subst hne
        rfl
      · obtain ⟨k, c, us, -, -, rfl⟩ := exists_eq_extend h hne
        rw [written_extend] at hwritten
        cases hwritten
  | cons c text ih =>
    constructor
    · intro h
      obtain ⟨k, us, hc, hus, rfl⟩ := exists_of_lexemes_cons h
      obtain ⟨hlexical, hwritten⟩ := ih.1 hus
      exact ⟨lexical_extend hc hlexical, by rw [written_extend, hwritten]⟩
    · rintro ⟨h, hwritten⟩
      have hne : ts ≠ [] := by
        rintro rfl
        cases hwritten
      obtain ⟨k, d, us, hd, hus, rfl⟩ := exists_eq_extend h hne
      rw [written_extend, List.cons.injEq] at hwritten
      obtain ⟨rfl, hwritten⟩ := hwritten
      rw [lexemes, hd, ih.2 ⟨hus, hwritten⟩]
      rfl

/-- The texts that tokens of each kind may have. -/
inductive Spelled : Token → Prop
  | number {text : Text} (hne : text ≠ []) (h : ∀ c ∈ text, isDigit c = true ∨ c = '.') :
    Spelled (number text)
  | identifier {name : Text} (hne : name ≠ []) (h : ∀ c ∈ name, isLetter c = true) :
    Spelled (identifier name)
  | operator (op : Operator) : Spelled (operator op.symbol)
  | opening : Spelled opening
  | closing : Spelled closing

theorem Proper.spelled (h : t.Proper) (hruns : t.kind.runs = false) : t.Spelled := by
  cases h with
  | number | identifier => cases hruns
  | operator op => exact .operator op
  | opening => exact .opening
  | closing => exact .closing

/-- What a text is cut into is spelled as a token, except that it is never the joined `1/`. -/
theorem lexeme_iff : t.Lexeme ↔ t.Spelled ∧ t ≠ reciprocal := by
  constructor
  · rintro ⟨hne, hmem, hlength⟩
    have hreciprocal : t ≠ reciprocal := by
      rintro rfl
      cases hlength rfl
    refine ⟨?_, hreciprocal⟩
    obtain ⟨k, text⟩ := t
    cases k with
    | number => exact .number hne fun c hc => Kind.ofChar?_eq_number_iff.1 (hmem c hc)
    | identifier => exact .identifier hne fun c hc => Kind.ofChar?_eq_identifier_iff.1 (hmem c hc)
    | operator | opening | closing =>
      obtain ⟨c, rfl⟩ := List.length_eq_one_iff.1 (hlength rfl)
      exact (proper_singleton (hmem c List.mem_cons_self)).spelled rfl
  · rintro ⟨h, hreciprocal⟩
    cases h with
    | number hne h => exact ⟨hne, fun c hc => Kind.ofChar?_eq_number_iff.2 (h c hc), nofun⟩
    | identifier hne h => exact ⟨hne, fun c hc => Kind.ofChar?_eq_identifier_iff.2 (h c hc), nofun⟩
    | operator op =>
      cases op with
      | binary op =>
        have hsign : ∃ c ∈ ['+', '-', '*', '/', '^'], (Operator.binary op).symbol = [c] := by
          cases op <;> simp [Operator.symbol]
        obtain ⟨c, hc, hsymbol⟩ := hsign
        rw [hsymbol]
        exact lexeme_singleton (Kind.ofChar?_eq_operator_iff.2 hc)
      | reciprocal => exact absurd rfl hreciprocal
    | opening => exact lexeme_singleton (Kind.ofChar?_eq_opening_iff.2 rfl)
    | closing => exact lexeme_singleton (Kind.ofChar?_eq_closing_iff.2 rfl)

/-- Neighbours that are not cut at another place, nor joined, when they are written side by side. -/
def Apart (t u : Token) : Prop :=
  ¬ (t.kind = .number ∧ u.kind = .number) ∧ ¬ (t.kind = .identifier ∧ u.kind = .identifier) ∧
    ¬ (t.kind = .number ∧ u = reciprocal) ∧ ¬ (t = one ∧ u = slash)

/-- Tokens as they are spelled, each apart from the next one. -/
structure Canonical (ts : List Token) : Prop where
  spelled : ∀ t ∈ ts, t.Spelled
  apart : ts.IsChain Apart

theorem canonical_cons :
    Canonical (t :: ts) ↔ t.Spelled ∧ (∀ u ∈ ts.head?, Apart t u) ∧ Canonical ts := by
  constructor
  · rintro ⟨hspelled, hapart⟩
    rw [List.forall_mem_cons] at hspelled
    rw [List.isChain_cons] at hapart
    exact ⟨hspelled.1, hapart.1, hspelled.2, hapart.2⟩
  · rintro ⟨ht, hhead, hts⟩
    exact ⟨List.forall_mem_cons.2 ⟨ht, hts.spelled⟩, List.isChain_cons.2 ⟨hhead, hts.apart⟩⟩

theorem same_run_iff : t.kind = u.kind ∧ t.kind.runs = true ↔
    t.kind = .number ∧ u.kind = .number ∨ t.kind = .identifier ∧ u.kind = .identifier := by
  cases t.kind <;> cases u.kind <;> decide

theorem apart_iff (hu : u ≠ reciprocal) : Apart t u ↔
    ¬ (t.kind = u.kind ∧ t.kind.runs = true) ∧ ¬ (t = one ∧ u = slash) := by
  rw [same_run_iff, not_or]
  unfold Apart
  simp only [hu, and_false, not_false_iff, true_and, and_assoc]

theorem apart_of_kind (hnumber : t.kind ≠ .number) (hidentifier : t.kind ≠ .identifier)
    (u : Token) : Apart t u := by
  refine ⟨fun h => hnumber h.1, fun h => hidentifier h.1, fun h => hnumber h.1, ?_⟩
  rintro ⟨rfl, -⟩
  exact hnumber rfl

theorem written_joinReciprocals (ts : List Token) : written (joinReciprocals ts) = written ts := by
  fun_induction joinReciprocals ts with
  | case1 x y rest h ih =>
    obtain ⟨rfl, rfl⟩ := h
    rw [written_cons, ih]
    rfl
  | case2 x y rest h ih => rw [written_cons, written_cons, ih]
  | case3 ts h => rfl

theorem head?_joinReciprocals (h : u ∈ (joinReciprocals ts).head?) :
    u ∈ ts.head? ∨ u = reciprocal ∧ one ∈ ts.head? := by
  fun_cases joinReciprocals ts with
  | case1 x y rest hxy =>
    rw [joinReciprocals, if_pos hxy] at h
    exact .inr ⟨(Option.some.inj h).symm, congrArg some hxy.1⟩
  | case2 x y rest hxy =>
    rw [joinReciprocals, if_neg hxy] at h
    exact .inl h
  | case3 ts hts =>
    rw [joinReciprocals] at h
    · exact .inl h
    · exact hts

/-- Joining makes a lexical list canonical. -/
theorem canonical_joinReciprocals (h : Lexical ts) : Canonical (joinReciprocals ts) := by
  fun_induction joinReciprocals ts with
  | case1 x y rest hxy ih =>
    obtain ⟨-, -, hrest⟩ := lexical_cons.1 (lexical_cons.1 h).2.2
    have hapart := apart_of_kind (t := reciprocal) Kind.noConfusion Kind.noConfusion
    exact canonical_cons.2 ⟨.operator .reciprocal, fun u _ => hapart u, ih hrest⟩
  | case2 x y rest hxy ih =>
    obtain ⟨hx, hhead, hrest⟩ := lexical_cons.1 h
    refine canonical_cons.2 ⟨(lexeme_iff.1 hx).1, ?_, ih hrest⟩
    intro u hu
    rcases head?_joinReciprocals hu with hy | ⟨rfl, hone⟩
    · obtain rfl := Option.some.inj hy
      have hlexeme := lexeme_iff.1 (hrest.lexeme y List.mem_cons_self)
      exact (apart_iff hlexeme.2).2 ⟨hhead y rfl, hxy⟩
    · -- The next token was a number, so this one is none.
      have hnumber : x.kind ≠ .number := by
        intro hkind
        exact hhead one hone (same_run_iff.2 (.inl ⟨hkind, rfl⟩))
      exact ⟨fun h => hnumber h.1, fun h => Kind.noConfusion h.2, fun h => hnumber h.1,
        fun h => absurd h.2 (by decide)⟩
  | case3 ts hts =>
    cases ts with
    | nil => exact ⟨List.forall_mem_nil _, List.isChain_nil⟩
    | cons x rest =>
      cases rest with
      | nil =>
        have hx := lexeme_iff.1 (lexical_cons.1 h).1
        exact ⟨List.forall_mem_singleton.2 hx.1, List.isChain_singleton x⟩
      | cons y rest => exact absurd rfl (hts x y rest)

/-- The tokens with every joined `1/` taken apart. -/
def parted (ts : List Token) : List Token :=
  ts.flatMap fun t => if t = reciprocal then [one, slash] else [t]

theorem parted_cons_reciprocal (ts : List Token) :
    parted (reciprocal :: ts) = one :: slash :: parted ts := rfl

theorem parted_cons (h : t ≠ reciprocal) (ts : List Token) : parted (t :: ts) = t :: parted ts := by
  rw [parted, List.flatMap_cons, if_neg h]
  rfl

theorem head?_parted (h : u ∈ (parted ts).head?) :
    u ∈ ts.head? ∧ u ≠ reciprocal ∨ u = one ∧ reciprocal ∈ ts.head? := by
  cases ts with
  | nil => cases h
  | cons t ts =>
    by_cases ht : t = reciprocal
    · subst ht
      exact .inr ⟨(Option.some.inj h).symm, rfl⟩
    · rw [parted_cons ht] at h
      obtain rfl := Option.some.inj h
      exact .inl ⟨rfl, ht⟩

theorem written_parted (ts : List Token) : written (parted ts) = written ts := by
  induction ts with
  | nil => rfl
  | cons t ts ih =>
    by_cases ht : t = reciprocal
    · subst ht
      rw [parted_cons_reciprocal, written_cons, written_cons, ih]
      rfl
    · rw [parted_cons ht, written_cons, written_cons, ih]

theorem lexical_parted (h : Canonical ts) : Lexical (parted ts) := by
  induction ts with
  | nil => exact lexical_nil
  | cons t ts ih =>
    obtain ⟨ht, hhead, hts⟩ := canonical_cons.1 h
    by_cases hreciprocal : t = reciprocal
    · subst hreciprocal
      have hone : Kind.ofChar? '1' = some .number := by decide
      have hslash : Kind.ofChar? '/' = some .operator := by decide
      have hsign : Lexical (slash :: parted ts) :=
        lexical_cons.2 ⟨lexeme_singleton hslash, fun _ _ h => Bool.noConfusion h.2, ih hts⟩
      refine lexical_cons.2 ⟨lexeme_singleton hone, ?_, hsign⟩
      intro u hu hsame
      obtain rfl := Option.some.inj hu
      exact Kind.noConfusion hsame.1
    · rw [parted_cons hreciprocal]
      refine lexical_cons.2 ⟨lexeme_iff.2 ⟨ht, hreciprocal⟩, ?_, ih hts⟩
      intro u hu
      rcases head?_parted hu with ⟨hnext, hne⟩ | ⟨rfl, hnext⟩
      · exact ((apart_iff hne).1 (hhead u hnext)).1
      · intro hsame
        exact (hhead reciprocal hnext).2.2.1 ⟨hsame.1, rfl⟩

theorem joinReciprocals_parted (h : Canonical ts) : joinReciprocals (parted ts) = ts := by
  induction ts with
  | nil => rfl
  | cons t ts ih =>
    obtain ⟨-, hhead, hts⟩ := canonical_cons.1 h
    have hrest := ih hts
    by_cases hreciprocal : t = reciprocal
    · subst hreciprocal
      rw [parted_cons_reciprocal, joinReciprocals, if_pos ⟨rfl, rfl⟩, hrest]
    · rw [parted_cons hreciprocal]
      cases hparted : parted ts with
      | nil =>
        rw [hparted] at hrest
        rw [← hrest]
        rfl
      | cons y rest =>
        have hjoin : ¬ (t = one ∧ y = slash) := by
          rintro ⟨rfl, rfl⟩
          rcases head?_parted (u := slash) (by rw [hparted]; rfl) with ⟨hslash, -⟩ | ⟨hone, -⟩
          · exact (hhead slash hslash).2.2.2 ⟨rfl, rfl⟩
          · exact absurd hone (by decide)
        rw [joinReciprocals, if_neg hjoin, ← hparted, hrest]

theorem resolve_eq_ite (t : Token) : t.resolve =
    if t = identifier ['p', 'i'] then number Constant.pi
    else if t = identifier ['e'] then number Constant.e else t := by
  obtain ⟨kind, text⟩ := t
  cases kind with
  | identifier =>
    simp only [resolve, Constant.ofName?, identifier, mk.injEq, true_and]
    by_cases hpi : text = ['p', 'i']
    · rw [if_pos hpi, if_pos hpi]
    · rw [if_neg hpi, if_neg hpi]
      by_cases he : text = ['e']
      · rw [if_pos he, if_pos he]
      · rw [if_neg he, if_neg he]
  | number | operator | opening | closing => simp [resolve, identifier]

/-- A text is cut into the only canonical tokens that are written so, and constants are found among
its names afterwards. -/
theorem scan_eq_ok_iff_canonical (text : Text) :
    (∀ ts, scan false text = .ok ts ↔ Canonical ts ∧ written ts = text) ∧
    scan true text = (scan false text).map fun ts => ts.map fun t =>
      if t = identifier ['p', 'i'] then number Constant.pi
      else if t = identifier ['e'] then number Constant.e else t := by
  refine ⟨fun ts => ⟨?_, ?_⟩, ?_⟩
  · intro h
    obtain ⟨us, hus, rfl⟩ := Outcome.exists_of_map_eq_ok h
    obtain ⟨hlexical, rfl⟩ := lexemes_eq_ok_iff.1 hus
    exact ⟨canonical_joinReciprocals hlexical, written_joinReciprocals us⟩
  · rintro ⟨hcanonical, rfl⟩
    have hparted : lexemes (written ts) = .ok (parted ts) :=
      lexemes_eq_ok_iff.2 ⟨lexical_parted hcanonical, written_parted ts⟩
    rw [scan, hparted]
    exact congrArg Except.ok (joinReciprocals_parted hcanonical)
  · have hresolve : resolve = fun t => if t = identifier ['p', 'i'] then number Constant.pi
        else if t = identifier ['e'] then number Constant.e else t := funext resolve_eq_ite
    rw [scan, scan, ← hresolve]
    cases lexemes text <;> rfl

end Token
end Calculator
