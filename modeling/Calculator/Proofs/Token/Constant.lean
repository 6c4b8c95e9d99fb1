import Mathlib.Data.List.Infix
import Calculator.Proofs.Token.Canonical

/-!
# Constants in texts and among tokens

Constants can be replaced in a text, letter by letter, or among the tokens, as whole names. A text
is safely delimited if a word with the letters of a constant is that constant and no digit or point
stands beside it. Then no replacement falls inside a longer name and none runs into a number, so
both ways lead to the same tokens, `lexemes_substituteConstants`.
-/

namespace Calculator

namespace Text

/-- Letters with no further letter before or after them. -/
def IsWord (before word after : Text) : Prop :=
  word ≠ [] ∧ (∀ c ∈ word, isLetter c = true) ∧ (∀ c ∈ before.getLast?, isLetter c = false) ∧
    ∀ c ∈ after.head?, isLetter c = false

/-- A word with the letters of a constant is that constant, with no digit or point beside it. -/
def Delimits (before word after : Text) : Prop :=
  IsWord before word after → 'e' ∈ word ∨ ['p', 'i'] <:+: word →
    (word = ['e'] ∨ word = ['p', 'i']) ∧
      (∀ c ∈ before.getLast?, ¬ (isDigit c = true ∨ c = '.')) ∧
        ∀ c ∈ after.head?, ¬ (isDigit c = true ∨ c = '.')

/-- Every constant in the text stands alone. -/
def SafelyDelimited (t : Text) : Prop :=
  ∀ before word after, t = before ++ word ++ after → Delimits before word after

variable {t before word after : Text}

-- Stated with `all`, so that only the characters that occur are looked at.
instance (before word after : Text) : Decidable (IsWord before word after) :=
  decidable_of_iff (word ≠ [] ∧ word.all isLetter = true ∧
      before.getLast?.all (fun c => !isLetter c) = true ∧
      after.head?.all (fun c => !isLetter c) = true) (by
    simp only [IsWord, List.all_eq_true, Option.all_eq_true, Bool.not_eq_true', Option.mem_def])

instance (before word after : Text) : Decidable (Delimits before word after) :=
  decidable_of_iff (IsWord before word after → 'e' ∈ word ∨ ['p', 'i'] <:+: word →
      (word = ['e'] ∨ word = ['p', 'i']) ∧
        before.getLast?.all (fun c => !(isDigit c || c == '.')) = true ∧
        after.head?.all (fun c => !(isDigit c || c == '.')) = true) (by
    simp only [Delimits, Option.all_eq_true, Bool.not_eq_true', Bool.or_eq_false_iff,
      beq_eq_false_iff_ne, not_or, Bool.not_eq_true, Option.mem_def, ne_eq])

/-- A text is divided in three at two of its positions. -/
theorem safelyDelimited_iff : SafelyDelimited t ↔
    ∀ i < t.length + 1, ∀ j < t.length + 1,
      Delimits (t.take i) ((t.drop i).take j) ((t.drop i).drop j) := by
  constructor
  · intro h i _ j _
    apply h
    rw [List.append_assoc, List.take_append_drop, List.take_append_drop]
  · rintro h before word after rfl
    have hdivided := h before.length (by simp only [List.length_append]; omega) word.length
      (by simp only [List.length_append]; omega)
    rw [List.append_assoc, List.take_left, List.drop_left, List.take_left, List.drop_left]
      at hdivided
    exact hdivided

instance (t : Text) : Decidable (SafelyDelimited t) := decidable_of_iff _ safelyDelimited_iff.symm

theorem safelyDelimited_of_no_letter (h : ∀ c ∈ t, isLetter c = false) : SafelyDelimited t := by
  rintro before word after rfl ⟨hne, hletter, -⟩
  obtain ⟨c, hc⟩ := List.exists_mem_of_ne_nil word hne
  have hnone := h c (List.mem_append_left after (List.mem_append_right before hc))
  rw [hletter c hc] at hnone
  cases hnone

/-- What follows a character that is no letter is safely delimited too. -/
theorem SafelyDelimited.of_cons {c : Char} (h : SafelyDelimited (c :: t))
    (hc : isLetter c = false) : SafelyDelimited t := by
  rintro before word after rfl ⟨hne, hletter, hbefore, hafter⟩ hconstant
  have hword : IsWord (c :: before) word after := by
    refine ⟨hne, hletter, ?_, hafter⟩
    intro d hd
    cases before with
    | nil =>
      obtain rfl := Option.some.inj hd
      exact hc
    | cons x rest => exact hbefore d hd
  obtain ⟨hname, hleft, hright⟩ := h (c :: before) word after rfl hword hconstant
  refine ⟨hname, ?_, hright⟩
  intro d hd
  cases before with
  | nil => cases hd
  | cons x rest => exact hleft d hd

/-- Texts that do not form a `pi` where they meet are substituted one by one. -/
theorem substitutePi_append
    (h : ¬ ('p' ∈ before.getLast? ∧ 'i' ∈ after.head?)) :
    substitutePi (before ++ after) = substitutePi before ++ substitutePi after := by
  fun_induction substitutePi before with
  | case1 rest ih =>
    have hrest : ¬ ('p' ∈ rest.getLast? ∧ 'i' ∈ after.head?) := fun hmeet =>
      h ⟨List.mem_getLast?_cons (List.mem_getLast?_cons hmeet.1), hmeet.2⟩
    rw [List.cons_append, List.cons_append, substitutePi, ih hrest, List.append_assoc]
  | case2 c rest hc ih =>
    have hrest : ¬ ('p' ∈ rest.getLast? ∧ 'i' ∈ after.head?) := fun hmeet =>
      h ⟨List.mem_getLast?_cons hmeet.1, hmeet.2⟩
    rw [List.cons_append, substitutePi, ih hrest, List.cons_append]
    rintro more rfl hmore
    cases rest with
    | nil => exact h ⟨rfl, congrArg List.head? hmore⟩
    | cons x xs => exact hc xs rfl (by rw [(List.cons.inj hmore).1])
  | case3 => rfl

theorem substituteConstants_append (h : ¬ ('p' ∈ before.getLast? ∧ 'i' ∈ after.head?)) :
    substituteConstants (before ++ after) =
      substituteConstants before ++ substituteConstants after := by
  rw [substituteConstants, substitutePi_append h, substituteE, List.flatMap_append]
  rfl

theorem substitutePi_eq_self_of_not_infix (h : ¬ ['p', 'i'] <:+: t) : substitutePi t = t := by
  fun_induction substitutePi t with
  | case1 rest ih => exact absurd (List.prefix_append ['p', 'i'] rest).isInfix h
  | case2 c rest hc ih => rw [ih fun hr => h (hr.trans (List.suffix_cons c rest).isInfix)]
  | case3 => rfl

theorem substituteConstants_eq_self_of_not_infix (hp : ¬ ['p', 'i'] <:+: t) (he : 'e' ∉ t) :
    substituteConstants t = t := by
  have hself : substituteConstants t = t.flatMap fun c => [c] := by
    rw [substituteConstants, substitutePi_eq_self_of_not_infix hp, substituteE]
    refine List.flatMap_congr ?_
    intro c hc
    refine if_neg ?_
    rintro rfl
    exact he hc
  rw [hself, List.flatMap_singleton']

end Text

namespace Token

open Text (IsWord SafelyDelimited substituteConstants)

variable {t u : Token} {ts pre post : List Token} {text : Text}

theorem written_append (ts us : List Token) : written (ts ++ us) = written ts ++ written us := by
  rw [written, List.map_append, List.flatten_append]
  rfl

/-- The class of the first character is the kind of the first token. -/
theorem ofChar?_head?_written (h : ∀ t ∈ ts, t.Lexeme) :
    (written ts).head?.bind Kind.ofChar? = ts.head?.map Token.kind := by
  cases ts with
  | nil => rfl
  | cons t rest =>
    have ht := h t List.mem_cons_self
    obtain ⟨c, more, htext⟩ := List.exists_cons_of_ne_nil ht.ne_nil
    have hc := ht.ofChar?_of_mem c (by rw [htext]; exact List.mem_cons_self)
    rw [written_cons, htext]
    exact hc

/-- The class of the last character is the kind of the last token. -/
theorem ofChar?_getLast?_written (h : ∀ t ∈ ts, t.Lexeme) :
    (written ts).getLast?.bind Kind.ofChar? = ts.getLast?.map Token.kind := by
  rcases List.eq_nil_or_concat ts with rfl | ⟨before, t, rfl⟩
  · rfl
  · rw [List.concat_eq_append] at h ⊢
    have ht := h t (List.mem_append_right before List.mem_cons_self)
    have htext : written [t] = t.text := List.append_nil t.text
    rw [written_append, htext, List.getLast?_append_of_ne_nil _ ht.ne_nil, List.getLast?_concat,
      List.getLast?_eq_some_getLast ht.ne_nil]
    exact ht.ofChar?_of_mem _ (List.getLast_mem ht.ne_nil)

theorem exists_of_mem_head?_written {c : Char} {k : Kind} (h : ∀ t ∈ ts, t.Lexeme)
    (hc : c ∈ (written ts).head?) (hk : Kind.ofChar? c = some k) : ∃ u ∈ ts.head?, u.kind = k := by
  have hhead := ofChar?_head?_written h
  rw [Option.mem_def.1 hc, Option.bind_some, hk] at hhead
  exact Option.map_eq_some_iff.1 hhead.symm

theorem exists_of_mem_getLast?_written {c : Char} {k : Kind} (h : ∀ t ∈ ts, t.Lexeme)
    (hc : c ∈ (written ts).getLast?) (hk : Kind.ofChar? c = some k) :
    ∃ u ∈ ts.getLast?, u.kind = k := by
  have hlast := ofChar?_getLast?_written h
  rw [Option.mem_def.1 hc, Option.bind_some, hk] at hlast
  exact Option.map_eq_some_iff.1 hlast.symm

/-- A name among the tokens is a word of the text. -/
theorem isWord_of_lexical (h : Lexical (pre ++ t :: post)) (hkind : t.kind = .identifier) :
    IsWord (written pre) t.text (written post) := by
  obtain ⟨hpre, hts⟩ := List.forall_mem_append.1 h.lexeme
  obtain ⟨ht, hpost⟩ := List.forall_mem_cons.1 hts
  obtain ⟨-, hchain, hleft⟩ := List.isChain_append.1 h.apart
  have hright := (List.isChain_cons.1 hchain).1
  refine ⟨ht.ne_nil, ?_, ?_, ?_⟩
  · intro c hc
    rw [← Kind.ofChar?_eq_identifier_iff, ← hkind]
    exact ht.ofChar?_of_mem c hc
  · intro c hc
    rw [← Bool.not_eq_true, ← Kind.ofChar?_eq_identifier_iff]
    intro hidentifier
    obtain ⟨u, hu, hukind⟩ := exists_of_mem_getLast?_written hpre hc hidentifier
    exact hleft u hu t rfl ⟨hukind.trans hkind.symm, by rw [hukind]; rfl⟩
  · intro c hc
    rw [← Bool.not_eq_true, ← Kind.ofChar?_eq_identifier_iff]
    intro hidentifier
    obtain ⟨u, hu, hukind⟩ := exists_of_mem_head?_written hpost hc hidentifier
    exact hright u hu ⟨hkind.trans hukind.symm, by rw [hkind]; rfl⟩

/-- In a safely delimited text a name with the letters of a constant is that constant, and no number
stands beside it. -/
theorem delimits_of_lexical (h : Lexical (pre ++ t :: post))
    (hsafe : SafelyDelimited (written (pre ++ t :: post))) (hkind : t.kind = .identifier)
    (hconstant : 'e' ∈ t.text ∨ ['p', 'i'] <:+: t.text) :
    (t.text = ['e'] ∨ t.text = ['p', 'i']) ∧ (∀ u ∈ pre.getLast?, u.kind ≠ .number) ∧
      ∀ u ∈ post.head?, u.kind ≠ .number := by
  have htext : written (pre ++ t :: post) = written pre ++ t.text ++ written post := by
    rw [written_append, written_cons, List.append_assoc]
  obtain ⟨hname, hleft, hright⟩ :=
    hsafe _ _ _ htext (isWord_of_lexical h hkind) hconstant
  obtain ⟨hpre, hts⟩ := List.forall_mem_append.1 h.lexeme
  obtain ⟨-, hpost⟩ := List.forall_mem_cons.1 hts
  refine ⟨hname, ?_, ?_⟩
  · intro u hu hnumber
    have hlast := ofChar?_getLast?_written hpre
    rw [Option.mem_def.1 hu, Option.map_some, hnumber] at hlast
    obtain ⟨c, hc, hclass⟩ := Option.bind_eq_some_iff.1 hlast
    exact hleft c hc (Kind.ofChar?_eq_number_iff.1 hclass)
  · intro u hu hnumber
    have hhead := ofChar?_head?_written hpost
    rw [Option.mem_def.1 hu, Option.map_some, hnumber] at hhead
    obtain ⟨c, hc, hclass⟩ := Option.bind_eq_some_iff.1 hhead
    exact hright c hc (Kind.ofChar?_eq_number_iff.1 hclass)

theorem resolve_of_kind_ne (h : t.kind ≠ .identifier) : t.resolve = t :=
  t.resolve_eq.resolve_right fun hname => h hname.1

theorem resolve_identifier_of_ne {name : Text} (hpi : name ≠ ['p', 'i']) (he : name ≠ ['e']) :
    (identifier name).resolve = identifier name := by
  rw [resolve_eq_ite, if_neg fun h => hpi (congrArg Token.text h),
    if_neg fun h => he (congrArg Token.text h)]

/-- Only the name of a constant is resolved. -/
theorem mem_of_resolve_eq_number {decimal : Text} (hkind : t.kind = .identifier)
    (h : t.resolve = number decimal) : 'e' ∈ t.text ∨ ['p', 'i'] <:+: t.text := by
  by_cases hpi : t.text = ['p', 'i']
  · rw [hpi]
    exact .inr List.infix_rfl
  · by_cases he : t.text = ['e']
    · rw [he]
      exact .inl List.mem_cons_self
    · obtain ⟨kind, name⟩ := t
      obtain rfl : kind = .identifier := hkind
      have hsame := resolve_identifier_of_ne hpi he
      cases hsame.symm.trans h

theorem lexeme_resolve (h : t.Lexeme) : t.resolve.Lexeme := by
  have hconstant {decimal : Text} (hne : decimal ≠ [])
      (hall : decimal.all (fun c => isDigit c || c == '.') = true) : (number decimal).Lexeme := by
    refine lexeme_iff.2 ⟨.number hne fun c hc => ?_, Kind.noConfusion ∘ congrArg Token.kind⟩
    simpa using List.all_eq_true.1 hall c hc
  rw [resolve_eq_ite]
  split
  · exact hconstant (by decide) (by decide)
  · split
    · exact hconstant (by decide) (by decide)
    · exact h

theorem lexical_map_resolve (h : Lexical ts) (hsafe : SafelyDelimited (written ts)) :
    Lexical (ts.map resolve) := by
  have hlexeme : ∀ t ∈ ts.map resolve, t.Lexeme := by
    intro t ht
    obtain ⟨u, hu, rfl⟩ := List.mem_map.1 ht
    exact lexeme_resolve (h.lexeme u hu)
  refine ⟨hlexeme, ?_⟩
  rw [List.isChain_map, List.isChain_iff_forall_rel_of_append_cons_cons]
  rintro t u pre post rfl hsame
  have hapart := (List.isChain_iff_forall_rel_of_append_cons_cons.1 h.apart) rfl
  rcases t.resolve_eq with ht | ⟨htkind, decimal, ht⟩
  · rcases u.resolve_eq with hu | ⟨hukind, decimal, hu⟩
    · rw [ht, hu] at hsame
      exact hapart hsame
    · have hbefore : pre ++ t :: u :: post = (pre ++ [t]) ++ u :: post := List.append_cons pre t _
      rw [hbefore] at h hsafe
      have hdelimits := delimits_of_lexical h hsafe hukind (mem_of_resolve_eq_number hukind hu)
      rw [ht, hu] at hsame
      exact hdelimits.2.1 t List.getLast?_concat hsame.1
  · have hdelimits := delimits_of_lexical h hsafe htkind (mem_of_resolve_eq_number htkind ht)
    rcases u.resolve_eq with hu | ⟨hukind, decimal', hu⟩
    · rw [ht, hu] at hsame
      exact hdelimits.2.2 u rfl hsame.1.symm
    · exact hapart ⟨htkind.trans hukind.symm, by rw [htkind]; rfl⟩

theorem text_resolve (h : t.Lexeme)
    (hname : t.kind = .identifier → 'e' ∈ t.text ∨ ['p', 'i'] <:+: t.text →
      t.text = ['e'] ∨ t.text = ['p', 'i']) :
    t.resolve.text = substituteConstants t.text := by
  by_cases hconstant : 'e' ∈ t.text ∨ ['p', 'i'] <:+: t.text
  · have hkind : t.kind = .identifier := by
      have hletter : ∃ c ∈ t.text, Kind.ofChar? c = some .identifier := by
        rcases hconstant with he | hpi
        · exact ⟨'e', he, by decide⟩
        · exact ⟨'p', hpi.subset List.mem_cons_self, by decide⟩
      obtain ⟨c, hc, hclass⟩ := hletter
      exact Option.some.inj ((h.ofChar?_of_mem c hc).symm.trans hclass)
    obtain ⟨kind, text⟩ := t
    obtain rfl : kind = .identifier := hkind
    rcases hname rfl hconstant with rfl | rfl <;> rfl
  · rw [not_or] at hconstant
    rw [Text.substituteConstants_eq_self_of_not_infix hconstant.2 hconstant.1]
    rcases t.resolve_eq with hsame | ⟨hkind, decimal, hresolve⟩
    · rw [hsame]
    · exact absurd (mem_of_resolve_eq_number hkind hresolve) (not_or.2 hconstant)

theorem written_map_resolve (h : Lexical ts)
    (hname : ∀ t ∈ ts, t.kind = .identifier → 'e' ∈ t.text ∨ ['p', 'i'] <:+: t.text →
      t.text = ['e'] ∨ t.text = ['p', 'i']) :
    written (ts.map resolve) = substituteConstants (written ts) := by
  induction ts with
  | nil => rfl
  | cons t ts ih =>
    obtain ⟨ht, hhead, hts⟩ := lexical_cons.1 h
    obtain ⟨htname, htsname⟩ := List.forall_mem_cons.1 hname
    -- Two names never meet, so no `pi` begins in one token and ends in the next.
    have hmeet : ¬ ('p' ∈ t.text.getLast? ∧ 'i' ∈ (written ts).head?) := by
      rintro ⟨hp, hi⟩
      have hkind := ht.ofChar?_of_mem 'p' (List.mem_of_mem_getLast? hp)
      rw [Kind.ofChar?_eq_identifier_iff.2 (by decide), Option.some.injEq] at hkind
      obtain ⟨u, hu, hukind⟩ := exists_of_mem_head?_written hts.lexeme hi
        (Kind.ofChar?_eq_identifier_iff.2 (by decide))
      exact hhead u hu ⟨hkind.symm.trans hukind.symm, by rw [← hkind]; rfl⟩
    rw [List.map_cons, written_cons, written_cons, Text.substituteConstants_append hmeet,
      text_resolve ht htname, ih hts htsname]

/-- In a safely delimited text constants may as well be replaced before it is cut. -/
theorem lexemes_substituteConstants (hsafe : SafelyDelimited text) (h : lexemes text = .ok ts) :
    lexemes (substituteConstants text) = .ok (ts.map resolve) := by
  obtain ⟨hlexical, rfl⟩ := lexemes_eq_ok_iff.1 h
  refine lexemes_eq_ok_iff.2 ⟨lexical_map_resolve hlexical hsafe, ?_⟩
  apply written_map_resolve hlexical
  intro t ht hkind hconstant
  obtain ⟨pre, post, rfl⟩ := List.append_of_mem ht
  exact (delimits_of_lexical hlexical hsafe hkind hconstant).1

theorem resolve_eq_iff (hkind : u.kind ≠ .identifier) (hu : u ≠ number Constant.pi)
    (hu' : u ≠ number Constant.e) : t.resolve = u ↔ t = u := by
  constructor
  · intro h
    rw [resolve_eq_ite] at h
    split at h
    · exact absurd h.symm hu
    · split at h
      · exact absurd h.symm hu'
      · exact h
  · rintro rfl
    exact resolve_of_kind_ne hkind

/-- Constants take no part in joining. -/
theorem joinReciprocals_map_resolve (ts : List Token) :
    joinReciprocals (ts.map resolve) = (joinReciprocals ts).map resolve := by
  have hone {t : Token} : t.resolve = one ↔ t = one :=
    resolve_eq_iff Kind.noConfusion (by decide) (by decide)
  have hslash {t : Token} : t.resolve = slash ↔ t = slash :=
    resolve_eq_iff Kind.noConfusion (by decide) (by decide)
  fun_induction joinReciprocals ts with
  | case1 x y rest h ih =>
    rw [List.map_cons, List.map_cons, joinReciprocals, if_pos ⟨hone.2 h.1, hslash.2 h.2⟩, ih]
    rfl
  | case2 x y rest h ih =>
    have hxy : ¬ (x.resolve = one ∧ y.resolve = slash) := by rwa [hone, hslash]
    rw [List.map_cons, List.map_cons, joinReciprocals, if_neg hxy, ← List.map_cons, ih,
      List.map_cons]
  | case3 ts h =>
    cases ts with
    | nil => rfl
    | cons x rest =>
      cases rest with
      | nil => rfl
      | cons y rest => exact absurd rfl (h x y rest)

end Token
end Calculator
