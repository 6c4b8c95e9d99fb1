import Calculator.Proofs.Postfix.Conservation
import Calculator.Proofs.Postfix.Group

/-!
# A group in the place of a number

To the conversion a group is one operand, and so is a name with a group behind it. Whatever stands
around it, well formed or not, the result is that for a number in its place, with the converted
group put where the number came out. A call may stand anywhere. A group by itself takes the place
only where no name waits for it: at the start, and behind an operator or an opening parenthesis.
-/

namespace Calculator

/-- The tokens with others put where a token stands. -/
def Token.splice (x : Token) (us ts : List Token) : List Token :=
  ts.flatMap fun t => if t = x then us else [t]

namespace Token

variable {x : Token} {ts us : List Token}

theorem splice_eq_self (h : x ∉ ts) : splice x us ts = ts := by
  induction ts with
  | nil => rfl
  | cons t ts ih =>
    have ht : t ≠ x := fun ht => h (ht ▸ List.mem_cons_self)
    rw [splice, List.flatMap_cons, if_neg ht]
    exact congrArg (t :: ·) (ih fun hx => h (List.mem_cons_of_mem t hx))

theorem splice_append_cons {before after : List Token} (hbefore : x ∉ before)
    (hafter : x ∉ after) : splice x us (before ++ x :: after) = before ++ (us ++ after) := by
  rw [splice, List.flatMap_append, List.flatMap_cons, if_pos rfl]
  change splice x us before ++ (us ++ splice x us after) = _
  rw [splice_eq_self hbefore, splice_eq_self hafter]

end Token

namespace Postfix

variable {stack stack' : List Pending} {previous last : Option Kind} {t : Token} {x : Text}
variable {ts pre mid post passed inner listing : List Token}

/-- Numbers only come out where one went in, zeros aside. -/
theorem mem_of_filter_isNumber (hx : x ≠ ['0'])
    (hfilter : listing.filter Token.isNumber = (contributions previous ts).filter Token.isNumber)
    (h : Token.number x ∈ listing) : Token.number x ∈ ts := by
  have hmem : Token.number x ∈ listing.filter Token.isNumber := List.mem_filter.2 ⟨h, rfl⟩
  rw [hfilter] at hmem
  rcases mem_contributions (List.mem_filter.1 hmem).1 with hts | hzero | hsub
  · exact hts
  · exact absurd (congrArg Token.text hzero) hx
  · exact Kind.noConfusion (congrArg Token.kind hsub)

theorem ne_call_of_stepOperator (stack : List Pending) (previous : Option Kind) (symbol : Text) :
    ∀ top ∈ (stepOperator stack previous symbol).2.head?, ∀ name, top ≠ .call name := by
  unfold stepOperator
  split
  · intro top htop name
    obtain rfl := Option.some.inj htop
    exact Pending.noConfusion
  · split <;>
    · intro top htop name
      obtain rfl := Option.some.inj htop
      exact Pending.noConfusion

theorem ne_call_of_step (ht : t.kind = .operator ∨ t.kind = .opening)
    (h : step stack previous t = some (passed, stack')) :
    ∀ top ∈ stack'.head?, ∀ name, top ≠ .call name := by
  obtain ⟨kind, text⟩ := t
  rcases ht with rfl | rfl
  · have hstack := (Prod.mk.inj (Option.some.inj h)).2
    rw [← hstack]
    exact ne_call_of_stepOperator stack previous text
  · obtain ⟨-, rfl⟩ := Prod.mk.inj (Option.some.inj h)
    intro top htop name
    obtain rfl := Option.some.inj htop
    exact Pending.noConfusion

theorem exists_step_of_read_append
    (h : read stack previous (ts ++ [t]) = some (passed, stack', last)) :
    ∃ before kind out, step before kind t = some (out, stack') := by
  rw [read_append] at h
  obtain ⟨⟨early, before, kind⟩, -, hrest⟩ := Option.bind_eq_some_iff.1 h
  obtain ⟨⟨out, after, kind'⟩, hlast, heq⟩ := Option.map_eq_some_iff.1 hrest
  obtain ⟨-, heq⟩ := Prod.mk.inj heq
  obtain ⟨rfl, -⟩ := Prod.mk.inj heq
  cases hstep : step before kind t with
  | none => simp [read, hstep] at hlast
  | some r =>
    obtain ⟨now, next⟩ := r
    rw [read_singleton hstep] at hlast
    obtain ⟨-, hnext⟩ := Prod.mk.inj (Option.some.inj hlast)
    obtain ⟨rfl, -⟩ := Prod.mk.inj hnext
    exact ⟨before, kind, now, hstep⟩

/-- At the start and behind an operator or an opening parenthesis no name is on top. -/
theorem ne_call_of_read (hpre : ∀ t ∈ pre.getLast?, t.kind = .operator ∨ t.kind = .opening)
    (h : read [] previous pre = some (passed, stack, last)) :
    ∀ top ∈ stack.head?, ∀ name, top ≠ .call name := by
  rcases List.eq_nil_or_concat pre with rfl | ⟨ts, t, rfl⟩
  · obtain ⟨-, hstack⟩ := Prod.mk.inj (Option.some.inj h)
    obtain ⟨rfl, -⟩ := Prod.mk.inj hstack
    exact fun top htop => nomatch htop
  · rw [List.concat_eq_append] at hpre h
    obtain ⟨before, kind, out, hstep⟩ := exists_step_of_read_append h
    exact ne_call_of_step (hpre t (by simp)) hstep

/-- A closed parenthesis before a token counts like a number. -/
theorem convertFrom_closing (stack : List Pending) (ts : List Token) :
    convertFrom stack (some .closing) ts = convertFrom stack (some .number) ts := by
  cases ts with
  | nil => rfl
  | cons t ts => rfl

theorem convertFrom_number (stack : List Pending) (previous : Option Kind) (x : Text)
    (post : List Token) :
    convertFrom stack previous (Token.number x :: post) =
      (convertFrom stack (some .number) post).map (Token.number x :: ·) := rfl

/-- Where an operand comes out in one piece, it comes out in the place of a number. -/
theorem splice_convertFrom {operand us : List Token} (hx : x ≠ ['0']) (hpre : Token.number x ∉ pre)
    (hpost : Token.number x ∉ post)
    (hoperand : ∀ passed stack last, read [] none pre = some (passed, stack, last) →
      convertFrom stack last (operand ++ post) =
        (convertFrom stack (some .number) post).map (us ++ ·)) :
    ofInfix? (pre ++ (operand ++ post)) =
      (ofInfix? (pre ++ Token.number x :: post)).map (Token.splice (Token.number x) us) := by
  unfold ofInfix?
  cases hread : read [] none pre with
  | none => rw [convertFrom_append_eq_none hread, convertFrom_append_eq_none hread, Option.map_none]
  | some r =>
    obtain ⟨passed, stack, last⟩ := r
    rw [convertFrom_append hread, convertFrom_append hread, hoperand passed stack last hread,
      convertFrom_number]
    have hpassed : Token.number x ∉ passed := fun h =>
      hpre (mem_of_filter_isNumber hx (filter_isNumber_read hread) h)
    cases hlater : convertFrom stack (some .number) post with
    | none => rfl
    | some later =>
      have hnot : Token.number x ∉ later := fun h =>
        hpost (mem_of_filter_isNumber hx (filter_isNumber_convertFrom hlater) h)
      simp only [Option.map_some]
      rw [Token.splice_append_cons hpassed hnot]

/-- A group, and a name with a group behind it, may take the place of a number. -/
theorem ofInfix?_eq_splice (hmid : ofInfix? mid = some inner) (hx : x ≠ ['0'])
    (hpre : Token.number x ∉ pre) (hpost : Token.number x ∉ post) :
    ((∀ t ∈ pre.getLast?, t.kind = .operator ∨ t.kind = .opening) →
      ofInfix? (pre ++ (Token.opening :: (mid ++ [Token.closing]) ++ post)) =
        (ofInfix? (pre ++ Token.number x :: post)).map
          (Token.splice (Token.number x) inner)) ∧
      ∀ name, ofInfix? (pre ++
          (Token.identifier name :: Token.opening :: (mid ++ [Token.closing]) ++ post)) =
        (ofInfix? (pre ++ Token.number x :: post)).map
          (Token.splice (Token.number x) (inner ++ [Token.identifier name])) := by
  have hgroup : ∀ stack previous,
      convertFrom stack previous (Token.opening :: (mid ++ [Token.closing]) ++ post) =
        (convertFrom (afterClosing stack).2 (some .number) post).map fun later =>
          inner ++ ((afterClosing stack).1 ++ later) := by
    intro stack previous
    rw [← convertFrom_closing, ← convertFrom_group hmid stack previous post]
    simp
  constructor
  · intro hlast
    refine splice_convertFrom hx hpre hpost fun passed stack last hread => ?_
    rw [hgroup, afterClosing_of_ne_call (ne_call_of_read hlast hread)]
    rfl
  · intro name
    refine splice_convertFrom hx hpre hpost fun passed stack last _ => ?_
    change (convertFrom (.call name :: stack) (some .identifier)
      (Token.opening :: (mid ++ [Token.closing]) ++ post)).map ([] ++ ·) = _
    rw [hgroup]
    change ((convertFrom stack (some .number) post).map _).map _ = _
    rw [Option.map_map]
    congr 1
    funext later
    change inner ++ ([Token.identifier name] ++ later) = inner ++ [Token.identifier name] ++ later
    rw [List.append_assoc]

/-- Between two powers, with a factor missing behind them. -/
theorem ofInfix?_eq_splice_powers :
    ofInfix? [Token.number ['2'], Token.binary .pow, Token.opening, Token.binary .sub,
        Token.number ['3'], Token.closing, Token.binary .pow, Token.number ['5'],
        Token.binary .mul] =
      (ofInfix? [Token.number ['2'], Token.binary .pow, Token.number ['7'], Token.binary .pow,
        Token.number ['5'], Token.binary .mul]).map
        (Token.splice (Token.number ['7'])
          [Token.number ['0'], Token.number ['3'], Token.binary .sub]) ∧
    ofInfix? [Token.number ['2'], Token.identifier ['f'], Token.opening, Token.binary .sub,
        Token.number ['3'], Token.closing, Token.binary .pow, Token.number ['5']] =
      (ofInfix? [Token.number ['2'], Token.number ['7'], Token.binary .pow,
        Token.number ['5']]).map
        (Token.splice (Token.number ['7'])
          [Token.number ['0'], Token.number ['3'], Token.binary .sub, Token.identifier ['f']]) := by
  have hmid : ofInfix? [Token.binary .sub, Token.number ['3']] =
      some [Token.number ['0'], Token.number ['3'], Token.binary .sub] := by decide
  have hpower : Token.number ['7'] ∉ [Token.number ['2'], Token.binary .pow] := by decide
  have hnumber : Token.number ['7'] ∉ [Token.number ['2']] := by decide
  have hproduct : Token.number ['7'] ∉
      [Token.binary .pow, Token.number ['5'], Token.binary .mul] := by decide
  have hexponent : Token.number ['7'] ∉ [Token.binary .pow, Token.number ['5']] := by decide
  exact ⟨(ofInfix?_eq_splice hmid (by decide) hpower hproduct).1 (by decide),
    (ofInfix?_eq_splice hmid (by decide) hnumber hexponent).2 ['f']⟩

end Postfix
end Calculator
