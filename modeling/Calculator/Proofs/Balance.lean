import Mathlib.Data.List.Infix

/-!
# Balance

A list is balanced when no prefix of it closes more than it opens and the whole closes all that it
opens. `openAfter` counts what is open along the list and gives up at a closing that nothing was
opened for, and `balanced_iff` says that counting decides balance. Only the two kinds of element
count, so lists that count alike are balanced alike.
-/

namespace Calculator

variable {α : Type} [DecidableEq α] {opening closing : α}

/-- No prefix closes more than it opens, and as many are closed as are opened. -/
structure Balanced (opening closing : α) (l : List α) : Prop where
  closed_le : ∀ p, p <+: l → p.count closing ≤ p.count opening
  count_eq : l.count opening = l.count closing

/-- How many are open behind an element, given how many are open before it. -/
def openStep (opening closing : α) (n : Nat) (x : α) : Option Nat :=
  if x = opening then some (n + 1)
  else if x = closing then (if n = 0 then none else some (n - 1))
  else some n

/-- How many are open behind a list; `none` when one closes that was not opened. -/
def openAfter (opening closing : α) (n : Nat) (l : List α) : Option Nat :=
  l.foldlM (openStep opening closing) n

@[simp] theorem openAfter_nil (n : Nat) : openAfter opening closing n [] = some n := rfl

theorem openAfter_cons (n : Nat) (x : α) (l : List α) :
    openAfter opening closing n (x :: l) =
      (openStep opening closing n x).bind fun m => openAfter opening closing m l := rfl

theorem openStep_of_ne {x : α} (hopening : x ≠ opening) (hclosing : x ≠ closing) (n : Nat) :
    openStep opening closing n x = some n := by
  rw [openStep, if_neg hopening, if_neg hclosing]

theorem openAfter_cons_of_ne {x : α} (hopening : x ≠ opening) (hclosing : x ≠ closing) (n : Nat)
    (l : List α) : openAfter opening closing n (x :: l) = openAfter opening closing n l := by
  rw [openAfter_cons, openStep_of_ne hopening hclosing, Option.bind_some]

/-- Other elements may be left out. -/
theorem openAfter_filter {p : α → Bool} (hopening : p opening = true) (hclosing : p closing = true)
    (n : Nat) (l : List α) :
    openAfter opening closing n (l.filter p) = openAfter opening closing n l := by
  induction l generalizing n with
  | nil => rfl
  | cons x l ih =>
    by_cases hx : p x = true
    · rw [List.filter_cons_of_pos hx, openAfter_cons, openAfter_cons]
      congr 1
      funext m
      exact ih m
    · have hxo : x ≠ opening := fun h => hx (h ▸ hopening)
      have hxc : x ≠ closing := fun h => hx (h ▸ hclosing)
      rw [List.filter_cons_of_neg hx, openAfter_cons_of_ne hxo hxc, ih]

omit [DecidableEq α] in
theorem forall_prefix_cons {P : List α → Prop} {x : α} {l : List α} :
    (∀ p, p <+: x :: l → P p) ↔ P [] ∧ ∀ p, p <+: l → P (x :: p) := by
  constructor
  · intro h
    exact ⟨h [] List.nil_prefix, fun p hp => h (x :: p) (List.cons_prefix_cons.2 ⟨rfl, hp⟩)⟩
  · rintro ⟨hnil, hcons⟩ p hp
    rcases List.prefix_cons_iff.1 hp with rfl | ⟨q, rfl, hq⟩
    · exact hnil
    · exact hcons q hq

theorem openAfter_eq_some_iff (hne : opening ≠ closing) {n m : Nat} {l : List α} :
    openAfter opening closing n l = some m ↔
      (∀ p, p <+: l → p.count closing ≤ n + p.count opening) ∧
        n + l.count opening = m + l.count closing := by
  induction l generalizing n with
  | nil => simp [List.prefix_nil]
  | cons x l ih =>
    rw [openAfter_cons, openStep, forall_prefix_cons]
    by_cases hopening : x = opening
    · subst x
      rw [if_pos rfl, Option.bind_some, ih]
      simp only [List.count_cons_self, List.count_cons_of_ne hne, List.count_nil]
      refine and_congr ⟨fun h => ⟨by omega, fun p hp => ?_⟩, fun h p hp => ?_⟩ (by omega)
      · have := h p hp
        omega
      · have := h.2 p hp
        omega
    · by_cases hclosing : x = closing
      · subst x
        rw [if_neg hopening, if_pos rfl]
        simp only [List.count_cons_self, List.count_cons_of_ne hopening, List.count_nil]
        cases n with
        | zero =>
          -- The closing on its own is a prefix that closes too much.
          refine ⟨fun h => absurd h (by simp), fun h => ?_⟩
          have := h.1.2 [] List.nil_prefix
          simp at this
        | succ n =>
          rw [if_neg (Nat.succ_ne_zero n), Option.bind_some, Nat.add_sub_cancel, ih]
          refine and_congr ⟨fun h => ⟨by omega, fun p hp => ?_⟩, fun h p hp => ?_⟩ (by omega)
          · have := h p hp
            omega
          · have := h.2 p hp
            omega
      · rw [if_neg hopening, if_neg hclosing, Option.bind_some, ih]
        simp only [List.count_cons_of_ne hopening, List.count_cons_of_ne hclosing, List.count_nil]
        exact and_congr_left fun _ => ⟨fun h => ⟨Nat.zero_le _, h⟩, fun h => h.2⟩

theorem balanced_iff (hne : opening ≠ closing) {l : List α} :
    Balanced opening closing l ↔ openAfter opening closing 0 l = some 0 := by
  rw [openAfter_eq_some_iff hne]
  constructor
  · rintro ⟨hp, hl⟩
    exact ⟨fun p hpl => by rw [Nat.zero_add]; exact hp p hpl, by rw [hl]⟩
  · rintro ⟨hp, hl⟩
    exact ⟨fun p hpl => by rw [← Nat.zero_add (p.count opening)]; exact hp p hpl, by omega⟩

end Calculator
