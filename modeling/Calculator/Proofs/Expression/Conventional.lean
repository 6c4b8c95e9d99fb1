import Calculator.Proofs.Grammar.Joined

/-!
# Conventional expressions

A conventional expression has literals, the five binary operators and groups, and no sign, no
reciprocal and no call. Its text is cut into its tokens with every `1/` joined, so it is computed
along its tree with the reciprocals joined. That tree has the value of the conventional one unless a
literal `1` between one of `*`, `/` and `^` and a division sign is torn from its left operand.
-/

namespace Calculator

open Outcome

/-- The tokens of conventional expressions. -/
inductive Token.Conventional : Token → Prop
  | number {text : Text} (h : Numeral.Literal text) : Conventional (number text)
  | binary (op : BinaryOperator) : Conventional (binary op)
  | opening : Conventional opening
  | closing : Conventional closing

theorem Token.Conventional.of_mem {t : Token} (h : t.Conventional) {c : Char} (hc : c ∈ t.text) :
    isSpace c = false ∧ c ≠ 'p' ∧ c ≠ 'e' := by
  cases h with
  | number h =>
    rcases h.mem hc with hdigit | rfl
    · refine ⟨isSpace_eq_false_of_isDigit hdigit, ?_, ?_⟩ <;> rintro rfl <;>
        exact absurd hdigit (by decide)
    · decide
  | binary op => cases op <;> rw [List.mem_singleton.1 hc] <;> decide
  | opening | closing => rw [List.mem_singleton.1 hc]; decide

/-- Not a name, and a number only if it can be read. -/
def Token.Readable (t : Token) : Prop :=
  t.kind ≠ .identifier ∧ (t.kind = .number → ∃ x, Numeral.double? t.text = some x)

theorem Token.Conventional.readable {t : Token} (h : t.Conventional) : t.Readable := by
  cases h with
  | number h => exact ⟨Kind.noConfusion, fun _ => h.exists_double?⟩
  | binary | opening | closing => exact ⟨Kind.noConfusion, Kind.noConfusion⟩

namespace Token

/-- A number `1` is the right operand of `*`, `/` or `^` and stands before a division sign. -/
def Torn (ts : List Token) : Prop :=
  ∃ op, (op = .mul ∨ op = .div ∨ op = .pow) ∧ [binary op, one, slash] <:+: ts

/-- The tokens are the number `1` or end in it, after `*`, `/` or `^`. -/
def EndsInOne (ts : List Token) : Prop :=
  ts = [one] ∨ ∃ op, (op = .mul ∨ op = .div ∨ op = .pow) ∧ [binary op, one] <:+ ts

variable {ts us : List Token} {op : BinaryOperator}

theorem Torn.append_right (h : Torn ts) (pre post : List Token) : Torn (pre ++ (ts ++ post)) := by
  obtain ⟨op, hop, h⟩ := h
  have hpost := h.trans (List.prefix_append ts post).isInfix
  exact ⟨op, hop, hpost.trans (List.suffix_append pre _).isInfix⟩

theorem Torn.append_cons (h : Torn us) (ts : List Token) (t : Token) : Torn (ts ++ t :: us) := by
  obtain ⟨op, hop, h⟩ := h
  have hcons := h.trans (List.suffix_cons t us).isInfix
  exact ⟨op, hop, hcons.trans (List.suffix_append ts _).isInfix⟩

theorem torn_append_slash
    (h : ∃ op, (op = .mul ∨ op = .div ∨ op = .pow) ∧ [binary op, one] <:+ ts) (us : List Token) :
    Torn (ts ++ slash :: us) := by
  obtain ⟨op, hop, pre, rfl⟩ := h
  exact ⟨op, hop, pre, us, by simp⟩

theorem EndsInOne.append (h : EndsInOne us) (hop : op = .mul ∨ op = .div ∨ op = .pow)
    (ts : List Token) : EndsInOne (ts ++ binary op :: us) := by
  rcases h with rfl | ⟨op', hop', h⟩
  · exact .inr ⟨op, hop, List.suffix_append ts _⟩
  · have hcons := h.trans (List.suffix_cons (binary op) us)
    exact .inr ⟨op', hop', hcons.trans (List.suffix_append ts _)⟩

/-- Tokens on both sides of a character that stands alone are cut from their texts again. -/
theorem lexemes_written_append {c : Char} {k : Kind} (hc : Kind.ofChar? c = some k)
    (hk : k.runs = false) (hts : lexemes (written ts) = .ok ts)
    (hus : lexemes (written us) = .ok us) :
    lexemes (written (ts ++ ⟨k, [c]⟩ :: us)) = .ok (ts ++ ⟨k, [c]⟩ :: us) := by
  have htext : written (ts ++ ⟨k, [c]⟩ :: us) = written ts ++ c :: written us := by
    simp [written]
  rw [htext, lexemes_append_cons hc hk, hts, hus]
  rfl

end Token

namespace Derivation

/-- Literals, binary operators and groups only. -/
def Conventional {l : Level} : Derivation l → Prop
  | number text => Numeral.Literal text
  | call _ _ | negation _ | reciprocal _ => False
  | group inner => inner.Conventional
  | single a => a.Conventional
  | power base exponent => base.Conventional ∧ exponent.Conventional
  | factor f => f.Conventional
  | product left _ _ right => left.Conventional ∧ right.Conventional
  | term t => t.Conventional
  | sum left _ _ right => left.Conventional ∧ right.Conventional

/-- The text that a tree derives. -/
def text {l : Level} (d : Derivation l) : Text := Token.written d.tokens

variable {l : Level} {a : Arithmetic}

theorem conventional_of_mem {d : Derivation l} (hd : d.Conventional) :
    ∀ t ∈ d.tokens, t.Conventional := by
  have happend {ts us : List Token} (op : BinaryOperator) (hts : ∀ t ∈ ts, t.Conventional)
      (hus : ∀ t ∈ us, t.Conventional) : ∀ t ∈ ts ++ Token.binary op :: us, t.Conventional :=
    List.forall_mem_append.2 ⟨hts, List.forall_mem_cons.2 ⟨.binary op, hus⟩⟩
  induction d with
  | number text => exact List.forall_mem_singleton.2 (.number hd)
  | call | negation | reciprocal => exact hd.elim
  | group inner ih =>
    have hclosing : ∀ t ∈ [Token.closing], t.Conventional := List.forall_mem_singleton.2 .closing
    exact List.forall_mem_cons.2 ⟨.opening, List.forall_mem_append.2 ⟨ih hd, hclosing⟩⟩
  | single a ih | factor f ih | term t ih => exact ih hd
  | power base exponent ihb ihe => exact happend .pow (ihb hd.1) (ihe hd.2)
  | product left op hop right ihl ihr => exact happend op (ihl hd.1) (ihr hd.2)
  | sum left op hop right ihl ihr => exact happend op (ihl hd.1) (ihr hd.2)

/-- Computing along a tree fails only at a name or at a number that cannot be read. -/
theorem exists_value_eq_ok {d : Derivation l} (h : ∀ t ∈ d.tokens, t.Readable) :
    ∃ v, d.value a = .ok v := by
  have hmap {x : Except Fault Float} (f : Float → Float) (hx : ∃ v, x = .ok v) :
      ∃ v, x.map f = .ok v := by
    obtain ⟨v, rfl⟩ := hx
    exact ⟨f v, rfl⟩
  have hbinary {x y : Except Fault Float} (f : Float → Float → Float) (hx : ∃ v, x = .ok v)
      (hy : ∃ w, y = .ok w) : ∃ v, (x.bind fun v => y.map fun w => f v w) = .ok v := by
    obtain ⟨v, rfl⟩ := hx
    exact hmap (f v) hy
  induction d with
  | number text =>
    obtain ⟨x, hx⟩ : ∃ x, Numeral.double? text = some x := (h _ List.mem_cons_self).2 rfl
    exact ⟨x, by rw [value, hx]; rfl⟩
  | call name argument => exact absurd rfl (h _ List.mem_cons_self).1
  | group inner ih =>
    exact ih fun t ht => h t (List.mem_cons_of_mem _ (List.mem_append_left _ ht))
  | single a ih | factor f ih | term t ih => exact ih h
  | negation operand ih | reciprocal operand ih =>
    exact hmap _ (ih fun t ht => h t (List.mem_cons_of_mem _ ht))
  | power left right ihl ihr | product left op hop right ihl ihr | sum left op hop right ihl ihr =>
    obtain ⟨hl, hr⟩ := List.forall_mem_append.1 h
    exact hbinary _ (ihl hl) (ihr (List.forall_mem_cons.1 hr).2)

theorem value_eq_of_tokens_eq {l m : Level} {d : Derivation l} {e : Derivation m}
    (h : d.tokens = e.tokens) : d.value a = e.value a := by
  rw [← a.runInfix_tokens, h, a.runInfix_tokens]

/-- A number `1` that ends a conventional product is all of it or follows `*`, `/` or `^`. -/
theorem endsInOne_tokens {d : Derivation l} (hd : d.Conventional) (hl : l ≠ .expression)
    (hlast : d.tokens.getLast? = some Token.one) : Token.EndsInOne d.tokens := by
  have hright {ts us : List Token} {t : Token} (hne : us ≠ [])
      (h : (ts ++ t :: us).getLast? = some Token.one) : us.getLast? = some Token.one := by
    rwa [List.append_cons, List.getLast?_append_of_ne_nil _ hne] at h
  induction d with
  | number text => exact .inl (congrArg ([·]) (Option.some.inj hlast))
  | call | negation | reciprocal => exact hd.elim
  | group inner =>
    rw [tokens, ← List.cons_append, List.getLast?_concat] at hlast
    exact absurd (Option.some.inj hlast) (by decide)
  | single a ih | factor f ih => exact ih hd Level.noConfusion hlast
  | power base exponent _ ih =>
    have hexponent := ih hd.2 Level.noConfusion (hright exponent.tokens_ne_nil hlast)
    exact hexponent.append (.inr (.inr rfl)) base.tokens
  | product left op hop right _ ih =>
    have hfactor := ih hd.2 Level.noConfusion (hright right.tokens_ne_nil hlast)
    exact hfactor.append (hop.imp_right .inl) left.tokens
  | term | sum => exact absurd rfl hl

theorem double?_one : Numeral.double? ['1'] = some 1 := by decide +kernel

/-- Dividing one by an operand is its reciprocal. -/
theorem value_product_one {left : Derivation .term} {right : Derivation .factor}
    (hleft : left.tokens = [Token.one]) :
    (product left .div (.inr rfl) right).value a = (right.value a).map Arithmetic.reciprocal := by
  have hvalue : left.value a = .ok 1 := by
    have hone : left.tokens = (number ['1']).tokens := hleft
    rw [value_eq_of_tokens_eq hone, value, double?_one]
    rfl
  rw [value, hvalue]
  rfl

/-- A dividend only loses its `1` to the divisor if it is no more than that. -/
theorem eq_one_of_absorb {left t : Derivation .term} {right : Derivation .factor}
    (hleft : left.Conventional) (htorn : ¬ Token.Torn (left.tokens ++ Token.slash :: right.tokens))
    (ht : absorb right.joined left.joined = some t) :
    left.tokens = [Token.one] ∧ t.tokens = (reciprocal right.joined).tokens := by
  have habsorb := map_tokens_absorb right.joined left.joined (.inr rfl)
  rw [ht, left.tokens_joined, Token.replaceLastOne] at habsorb
  split at habsorb
  · next hlast =>
    have htokens := Option.some.inj habsorb
    have hends := endsInOne_tokens hleft Level.noConfusion (Token.getLast?_of_joinReciprocals hlast)
    have hwhole := hends.resolve_right fun h => htorn (Token.torn_append_slash h _)
    rw [hwhole] at htokens
    exact ⟨hwhole, htokens⟩
  · cases habsorb

theorem value_joined {d : Derivation l} (hd : d.Conventional) (htorn : ¬ Token.Torn d.tokens) :
    d.joined.value a = d.value a := by
  induction d with
  | number => rfl
  | call | negation | reciprocal => exact hd.elim
  | group inner ih => exact ih hd fun h => htorn (h.append_right [Token.opening] _)
  | single a ih | factor f ih | term t ih => exact ih hd htorn
  | power left right ihl ihr | sum left op hop right ihl ihr =>
    have hleft := ihl hd.1 fun h => htorn (h.append_right [] _)
    have hright := ihr hd.2 fun h => htorn (h.append_cons _ _)
    rw [joined, value, value, hleft, hright]
  | product left op hop right ihl ihr =>
    have hleft := ihl hd.1 fun h => htorn (h.append_right [] _)
    have hright := ihr hd.2 fun h => htorn (h.append_cons _ _)
    have hproduct : (product left.joined op hop right.joined).value a =
        (product left op hop right).value a := by
      rw [value, value, hleft, hright]
    by_cases hdiv : op = .div
    · subst op
      change ((absorb right.joined left.joined).getD
          (product left.joined .div hop right.joined)).value a = _
      cases ht : absorb right.joined left.joined with
      | none => exact hproduct
      | some t =>
        obtain ⟨hwhole, htokens⟩ := eq_one_of_absorb hd.1 htorn ht
        rw [Option.getD_some, value_eq_of_tokens_eq htokens, value, hright,
          value_product_one hwhole]
    · have hjoined : (product left op hop right).joined =
          product left.joined op hop right.joined := if_neg hdiv
      rw [hjoined, hproduct]

theorem lexemes_text {d : Derivation l} (hd : d.Conventional) :
    Token.lexemes d.text = .ok d.tokens := by
  have hbinary {ts us : List Token} (op : BinaryOperator)
      (hts : Token.lexemes (Token.written ts) = .ok ts)
      (hus : Token.lexemes (Token.written us) = .ok us) :
      Token.lexemes (Token.written (ts ++ Token.binary op :: us)) =
        .ok (ts ++ Token.binary op :: us) := by
    have hop : Kind.ofChar? '+' = some .operator ∧ Kind.ofChar? '-' = some .operator ∧
        Kind.ofChar? '*' = some .operator ∧ Kind.ofChar? '/' = some .operator ∧
        Kind.ofChar? '^' = some .operator := by decide
    obtain ⟨hadd, hsub, hmul, hdiv, hpow⟩ := hop
    cases op with
    | add => exact Token.lexemes_written_append hadd rfl hts hus
    | sub => exact Token.lexemes_written_append hsub rfl hts hus
    | mul => exact Token.lexemes_written_append hmul rfl hts hus
    | div => exact Token.lexemes_written_append hdiv rfl hts hus
    | pow => exact Token.lexemes_written_append hpow rfl hts hus
  induction d with
  | number text =>
    have hnumber (c : Char) (hc : c ∈ text) : Kind.ofChar? c = some .number := by
      rcases hd.mem hc with hdigit | rfl
      · rw [Kind.ofChar?, hdigit, Bool.true_or, if_pos rfl]
      · decide
    rw [Derivation.text, tokens, Token.written, List.map_singleton, List.flatten_singleton]
    exact Token.lexemes_number hd.ne_nil hnumber
  | call | negation | reciprocal => exact hd.elim
  | group inner ih =>
    have hopening : Kind.ofChar? '(' = some .opening := by decide
    have hclosing : Kind.ofChar? ')' = some .closing := by decide
    have hnil : Token.lexemes (Token.written []) = .ok [] := rfl
    have hinner := Token.lexemes_written_append hclosing rfl (ih hd) hnil
    exact Token.lexemes_written_append hopening rfl hnil hinner
  | single a ih | factor f ih | term t ih => exact ih hd
  | power left right ihl ihr | product left op hop right ihl ihr | sum left op hop right ihl ihr =>
    exact hbinary _ (ihl hd.1) (ihr hd.2)

theorem of_mem_text {d : Derivation l} (hd : d.Conventional) {c : Char} (hc : c ∈ d.text) :
    isSpace c = false ∧ c ≠ 'p' ∧ c ≠ 'e' := by
  obtain ⟨word, hword, hc⟩ := List.mem_flatten.1 hc
  obtain ⟨t, ht, rfl⟩ := List.mem_map.1 hword
  exact (conventional_of_mem hd t ht).of_mem hc

end Derivation

namespace Settings

variable {s : Settings} {d : Derivation .expression} {text : Text}

theorem tidy_of_compact (hd : d.Conventional) (h : text.compact = d.text) :
    s.tidy text = d.text :=
  s.tidy_of_filter h (fun hp => (Derivation.of_mem_text hd hp).2.1 rfl) fun he =>
    (Derivation.of_mem_text hd he).2.2 rfl

theorem readable_joined (hd : d.Conventional) : ∀ t ∈ d.joined.tokens, t.Readable := by
  intro t ht
  rw [d.tokens_joined] at ht
  rcases Token.mem_joinReciprocals ht with ht | rfl
  · exact (Derivation.conventional_of_mem hd t ht).readable
  · exact ⟨Kind.noConfusion, Kind.noConfusion⟩

theorem tokens_of_compact (hd : d.Conventional) (h : text.compact = d.text) :
    s.tokens text = .ok d.joined.tokens := by
  have hresolve : d.joined.tokens.map Token.resolve = d.joined.tokens := by
    have hkept (t : Token) (ht : t ∈ d.joined.tokens) : t.resolve = id t :=
      t.resolve_eq.resolve_right fun hname => (readable_joined hd t ht).1 hname.1
    rw [List.map_congr_left hkept, List.map_id]
  rw [tokens, tidy_of_compact hd h, Token.scan, Derivation.lexemes_text hd]
  dsimp only [Except.map]
  rw [← d.tokens_joined, hresolve, ite_self]

theorem exists_of_torn (h : Token.Torn d.tokens) :
    ∃ c ∈ ['*', '/', '^'], [c, '1', '/'] <:+: d.text := by
  obtain ⟨op, hop, pre, post, hd⟩ := h
  obtain ⟨c, hc, hsign⟩ : ∃ c ∈ ['*', '/', '^'], Token.binary op = ⟨.operator, [c]⟩ := by
    rcases hop with rfl | rfl | rfl
    · exact ⟨'*', List.mem_cons_self, rfl⟩
    · exact ⟨'/', by decide, rfl⟩
    · exact ⟨'^', by decide, rfl⟩
  refine ⟨c, hc, Token.written pre, Token.written post, ?_⟩
  rw [Derivation.text, ← hd, hsign]
  simp [Token.written, Token.one, Token.slash, Token.number, Token.operator]

/-- A conventional expression is computed along its tree with every `1/` joined, and along the tree
itself if no `1/` follows one of `*`, `/` and `^`. -/
theorem value_evaluate_conventional (hd : d.Conventional) (h : text.compact = d.text)
    (hstart : remainder? text = none) :
    ∃ v, (s.evaluate text).value = .ok v ∧ d.joined.value s.arithmetic = .ok v ∧
      ((∀ c ∈ ['*', '/', '^'], ¬ [c, '1', '/'] <:+: d.text) →
        d.value s.arithmetic = .ok v) := by
  obtain ⟨v, hv⟩ := Derivation.exists_value_eq_ok (a := s.arithmetic) (readable_joined hd)
  refine ⟨v, ?_, hv, fun hfree => ?_⟩
  · rw [value_evaluate_of_remainder?_eq_none s hstart,
      s.inline_of_tokens (tokens_of_compact hd h), hv]
  · have htorn : ¬ Token.Torn d.tokens := by
      intro ht
      obtain ⟨c, hc, hinfix⟩ := exists_of_torn ht
      exact hfree c hc hinfix
    rw [← Derivation.value_joined hd htorn, hv]

theorem value_evaluate_conventional_quotients :
    ∃ v, ((standard .native).evaluate "8/2 / (1/4)*3^.5".toList).value = .ok v ∧
      (Derivation.term (.product (.product (.product (.factor (.single (.number ['8']))) .div
          (.inr rfl) (.single (.number ['2']))) .div (.inr rfl)
          (.single (.group (.term (.product (.factor (.single (.number ['1']))) .div (.inr rfl)
            (.single (.number ['4']))))))) .mul (.inl rfl)
          (.power (.number ['3']) (.single (.number ['.', '5']))))).value
        (standard .native).arithmetic = .ok v := by
  have hhalf : Numeral.Literal ([] ++ '.' :: ['5']) :=
    .pointed (List.cons_ne_nil _ _) (List.forall_mem_singleton.2 rfl)
  have hcompact : Text.compact "8/2 / (1/4)*3^.5".toList = "8/2/(1/4)*3^.5".toList := rfl
  have hfree : ∀ c ∈ ['*', '/', '^'], ¬ [c, '1', '/'] <:+:
      ['8', '/', '2', '/', '(', '1', '/', '4', ')', '*', '3', '^', '.', '5'] := by
    simp [List.infix_cons_iff]
  obtain ⟨v, hvalue, -, htree⟩ := value_evaluate_conventional (s := standard .native)
    (d := .term (.product (.product (.product (.factor (.single (.number ['8']))) .div
      (.inr rfl) (.single (.number ['2']))) .div (.inr rfl)
      (.single (.group (.term (.product (.factor (.single (.number ['1']))) .div (.inr rfl)
        (.single (.number ['4']))))))) .mul (.inl rfl)
      (.power (.number ['3']) (.single (.number ['.', '5'])))))
    ⟨⟨⟨.digit rfl, .digit rfl⟩, .digit rfl, .digit rfl⟩, .digit rfl, hhalf⟩ hcompact rfl
  exact ⟨v, hvalue, htree hfree⟩

/-- The number `1` of `6/1/2` is read as the reciprocal of what follows. -/
theorem not_forall_value_evaluate_eq_value :
    ¬ ∀ (s : Settings) (d : Derivation .expression), d.Conventional → remainder? d.text = none →
      (s.evaluate d.text).value = d.value s.arithmetic := by
  intro h
  have hequal := h (standard .native)
    (.term (.product (.product (.factor (.single (.number ['6']))) .div (.inr rfl)
      (.single (.number ['1']))) .div (.inr rfl) (.single (.number ['2']))))
    ⟨⟨.digit rfl, .digit rfl⟩, .digit rfl⟩ rfl
  have hvalue : ((standard .native).evaluate ['6', '/', '1', '/', '2']).value = .ok 12 :=
    eq_ok_of_toOption (by decide +kernel)
  have htree : (Derivation.product (.product (.factor (.single (.number ['6']))) .div (.inr rfl)
      (.single (.number ['1']))) .div (.inr rfl) (.single (.number ['2']))).value
        (standard .native).arithmetic = .ok 3 :=
    eq_ok_of_toOption (by decide +kernel)
  have heq : (12 : Float) = 3 := Except.ok.inj (hvalue.symm.trans (hequal.trans htree))
  exact absurd heq (by decide +kernel)

end Settings
end Calculator
