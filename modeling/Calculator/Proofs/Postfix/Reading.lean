import Calculator.Postfix.Conversion

/-!
# Reading a stretch of tokens

`read` is the conversion to postfix order without its end: what passes while a stretch of tokens is
read, the stack that it leaves, and the kind of its last token. Stretches are read one after the
other, by `read_append`, and `convertFrom_eq_read` is the conversion in these terms.
-/

namespace Calculator.Postfix

/-- Reads tokens from a stack, given the kind of the token before them. -/
def read (stack : List Pending) (previous : Option Kind) :
    List Token → Option (List Token × List Pending × Option Kind)
  | [] => some ([], stack, previous)
  | t :: rest =>
    (step stack previous t).bind fun (passed, stack) =>
      (read stack (some t.kind) rest).map fun (later, left) => (passed ++ later, left)

variable {stack stack' stack'' : List Pending} {previous previous' previous'' : Option Kind}
variable {passed later : List Token} {t : Token}

theorem read_cons (h : step stack previous t = some (passed, stack')) (rest : List Token) :
    read stack previous (t :: rest) =
      (read stack' (some t.kind) rest).map fun (later, left) => (passed ++ later, left) := by
  rw [read, h, Option.bind_some]

theorem read_singleton (h : step stack previous t = some (passed, stack')) :
    read stack previous [t] = some (passed, stack', some t.kind) := by
  simp [read, h]

theorem read_append (stack : List Pending) (previous : Option Kind) (ts us : List Token) :
    read stack previous (ts ++ us) =
      (read stack previous ts).bind fun (passed, stack', previous') =>
        (read stack' previous' us).map fun (later, left) => (passed ++ later, left) := by
  induction ts generalizing stack previous with
  | nil => simp [read]
  | cons t ts ih =>
    cases hs : step stack previous t with
    | none => simp [read, hs]
    | some r =>
      rw [List.cons_append, read_cons hs, read_cons hs, ih, Option.bind_map, Option.map_bind]
      congr 1
      funext x
      simp [Function.comp_def]

theorem read_append_of_read {ts : List Token}
    (h : read stack previous ts = some (passed, stack', previous')) (us : List Token) :
    read stack previous (ts ++ us) =
      (read stack' previous' us).map fun (later, left) => (passed ++ later, left) := by
  rw [read_append, h, Option.bind_some]

theorem read_append_eq_some {ts us : List Token}
    (h : read stack previous ts = some (passed, stack', previous'))
    (h' : read stack' previous' us = some (later, stack'', previous'')) :
    read stack previous (ts ++ us) = some (passed ++ later, stack'', previous'') := by
  rw [read_append_of_read h, h', Option.map_some]

theorem convertFrom_eq_read (stack : List Pending) (previous : Option Kind) (ts : List Token) :
    convertFrom stack previous ts = (read stack previous ts).bind fun (passed, left, _) =>
      (finish left).map (passed ++ ·) := by
  induction ts generalizing stack previous with
  | nil => simp [convertFrom, read]
  | cons t ts ih =>
    cases hs : step stack previous t with
    | none => simp [convertFrom, read, hs]
    | some r =>
      obtain ⟨passed, stack'⟩ := r
      rw [read_cons hs, convertFrom, hs, Option.bind_some]
      dsimp only
      rw [ih, Option.bind_map, Option.map_bind]
      congr 1
      funext x
      simp [Function.comp_def]

theorem convertFrom_append {ts : List Token}
    (h : read stack previous ts = some (passed, stack', previous')) (us : List Token) :
    convertFrom stack previous (ts ++ us) =
      (convertFrom stack' previous' us).map (passed ++ ·) := by
  rw [convertFrom_eq_read, convertFrom_eq_read, read_append_of_read h, Option.bind_map,
    Option.map_bind]
  congr 1
  funext x
  simp [Function.comp_def]

theorem convertFrom_append_eq_none {ts : List Token} (h : read stack previous ts = none)
    (us : List Token) : convertFrom stack previous (ts ++ us) = none := by
  rw [convertFrom_eq_read, read_append, h, Option.bind_none, Option.bind_none]

theorem release_append (above below : List Pending) :
    release (above ++ below) = release above ++ release below := List.filterMap_append

/-- What passes and what is left when the parenthesis above a stack has closed: a name that waits on
top passes. -/
def afterClosing : List Pending → List Token × List Pending
  | .call name :: outer => ([Token.identifier name], outer)
  | stack => ([], stack)

theorem afterClosing_of_ne_call (h : ∀ top ∈ stack.head?, ∀ name, top ≠ .call name) :
    afterClosing stack = ([], stack) := by
  cases stack with
  | nil => rfl
  | cons top outer =>
    cases top with
    | call name => exact absurd rfl (h (.call name) rfl name)
    | opening | operator | negation => rfl

theorem stepClosing_append {inner : List Pending} (h : .opening ∉ inner) (stack : List Pending) :
    stepClosing (inner ++ .opening :: stack) =
      some (release inner ++ (afterClosing stack).1, (afterClosing stack).2) := by
  have hne : ∀ entry ∈ inner, decide (entry ≠ .opening) = true := fun entry he =>
    decide_eq_true fun ho => h (ho ▸ he)
  have htake : (inner ++ .opening :: stack).takeWhile (· ≠ .opening) = inner := by
    rw [List.takeWhile_append_of_pos hne]
    simp
  have hdrop : (inner ++ .opening :: stack).dropWhile (· ≠ .opening) = .opening :: stack := by
    rw [List.dropWhile_append_of_pos hne]
    simp
  simp only [stepClosing, htake, hdrop]
  cases stack with
  | nil => simp [afterClosing]
  | cons top outer => cases top <;> simp [afterClosing]

theorem stepClosing_eq_none (h : .opening ∉ stack) : stepClosing stack = none := by
  have hne : ∀ entry ∈ stack, decide (entry ≠ .opening) = true := fun entry he =>
    decide_eq_true fun ho => h (ho ▸ he)
  have hdrop : stack.dropWhile (· ≠ .opening) = [] := by
    rw [← List.append_nil stack, List.dropWhile_append_of_pos hne]
    rfl
  simp only [stepClosing, hdrop]

end Calculator.Postfix
