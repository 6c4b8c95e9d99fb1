import Calculator.Proofs.Postfix.Reading

/-!
# Groups in postfix order

An open parenthesis is a barrier: what stands inside a group is converted as it would be on its own,
whatever waits below. So a group passes in one piece, `convertFrom_group`, and nothing else in the
result depends on it.
-/

namespace Calculator.Postfix

variable {stack stack' : List Pending} {previous : Option Kind} {passed listing : List Token}

theorem takeWhile_append_barrier {α : Type} {p : α → Bool} {x : α} (hx : p x = false)
    (above below : List α) : (above ++ x :: below).takeWhile p = above.takeWhile p := by
  induction above with
  | nil => simp [hx]
  | cons y above ih => simp only [List.cons_append, List.takeWhile_cons, ih]

theorem dropWhile_append_barrier {α : Type} {p : α → Bool} {x : α} (hx : p x = false)
    (above below : List α) :
    (above ++ x :: below).dropWhile p = above.dropWhile p ++ x :: below := by
  induction above with
  | nil => simp [hx]
  | cons y above ih =>
    simp only [List.cons_append, List.dropWhile_cons, ih]
    split <;> rfl

theorem afterClosing_append_barrier (above below : List Pending) :
    afterClosing (above ++ .opening :: below) =
      ((afterClosing above).1, (afterClosing above).2 ++ .opening :: below) := by
  cases above with
  | nil => rfl
  | cons top outer => cases top <;> rfl

theorem stepOperator_append_barrier (above below : List Pending) (previous : Option Kind)
    (symbol : Text) :
    stepOperator (above ++ .opening :: below) previous symbol =
      ((stepOperator above previous symbol).1,
        (stepOperator above previous symbol).2 ++ .opening :: below) := by
  unfold stepOperator
  split
  · rfl
  · split
    · next op _ =>
      have hx : Pending.givesWay (.binary op) .opening = false := rfl
      rw [takeWhile_append_barrier hx, dropWhile_append_barrier hx]
      rfl
    · rfl

theorem step_append_barrier {t : Token} (h : step stack previous t = some (passed, stack'))
    (below : List Pending) :
    step (stack ++ .opening :: below) previous t = some (passed, stack' ++ .opening :: below) := by
  unfold step at h ⊢
  cases hk : t.kind with
  | number | identifier | opening =>
    simp only [hk, Option.some.injEq, Prod.mk.injEq] at h ⊢
    simp [← h.2, h.1]
  | operator =>
    simp only [hk, Option.some.injEq] at h ⊢
    rw [stepOperator_append_barrier, h]
  | closing =>
    simp only [hk] at h ⊢
    by_cases ho : Pending.opening ∈ stack
    · obtain ⟨inner, outer, rfl, hinner⟩ := List.eq_append_cons_of_mem ho
      rw [stepClosing_append hinner, Option.some.injEq, Prod.mk.injEq] at h
      rw [List.append_assoc, List.cons_append, stepClosing_append hinner,
        afterClosing_append_barrier, ← h.1, ← h.2]
    · rw [stepClosing_eq_none ho] at h
      cases h

/-- Tokens that convert on their own are read up to the end of their group, above any stack. -/
theorem read_of_convertFrom {ts : List Token} (h : convertFrom stack previous ts = some listing)
    (below : List Pending) :
    read (stack ++ .opening :: below) previous (ts ++ [Token.closing]) =
      some (listing ++ (afterClosing below).1, (afterClosing below).2, some .closing) := by
  induction ts generalizing stack previous listing with
  | nil =>
    by_cases ho : Pending.opening ∈ stack
    · simp [convertFrom, finish, ho] at h
    · simp only [convertFrom, finish, if_neg ho, Option.some.injEq] at h
      have hclose : step (stack ++ .opening :: below) previous Token.closing =
          some (release stack ++ (afterClosing below).1, (afterClosing below).2) :=
        stepClosing_append ho below
      rw [List.nil_append, read_singleton hclose, h]
      rfl
  | cons t ts ih =>
    rw [convertFrom] at h
    obtain ⟨⟨passed, stack'⟩, hstep, hrest⟩ := Option.bind_eq_some_iff.1 h
    obtain ⟨later, hlater, rfl⟩ := Option.map_eq_some_iff.1 hrest
    rw [List.cons_append, read_cons (step_append_barrier hstep below), ih hlater,
      Option.map_some, List.append_assoc]

/-- A group passes in one piece, followed by the name in front of it. -/
theorem convertFrom_group {ts : List Token} (h : ofInfix? ts = some listing)
    (stack : List Pending) (previous : Option Kind) (post : List Token) :
    convertFrom stack previous (Token.opening :: (ts ++ Token.closing :: post)) =
      (convertFrom (afterClosing stack).2 (some .closing) post).map fun later =>
        listing ++ ((afterClosing stack).1 ++ later) := by
  have hopen : convertFrom [] (some .opening) ts = some listing := by
    rw [← h, ofInfix?]
    cases ts with
    | nil => rfl
    | cons t ts => rfl
  have hread := read_of_convertFrom hopen stack
  rw [List.nil_append] at hread
  have hsplit : ts ++ Token.closing :: post = (ts ++ [Token.closing]) ++ post := by simp
  rw [convertFrom, hsplit]
  change (convertFrom (.opening :: stack) (some .opening) _).map _ = _
  rw [convertFrom_append hread]
  cases convertFrom (afterClosing stack).2 (some .closing) post <;> simp

end Calculator.Postfix
