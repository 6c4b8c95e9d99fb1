import Calculator.Fault

/-!
# Outcomes

An outcome is a value or a fault. A computation in steps has a value only if each step has one. Two
outcomes agree when they are the same fault or the same number, the sign of a zero aside, and they
fail alike when they are the same fault or both are values.
-/

namespace Calculator.Outcome

variable {α β : Type} {x : Except Fault α}

theorem exists_of_bind_eq_ok {ε : Type} {x : Except ε α} {f : α → Except ε β} {b : β}
    (h : x.bind f = .ok b) : ∃ v, x = .ok v ∧ f v = .ok b := by
  cases x with
  | error fault => cases h
  | ok v => exact ⟨v, rfl, h⟩

theorem exists_of_map_eq_ok {f : α → β} {b : β} (h : x.map f = .ok b) :
    ∃ v, x = .ok v ∧ f v = b := by
  cases x with
  | error fault => cases h
  | ok v => exact ⟨v, rfl, Except.ok.inj h⟩

theorem eq_ok_of_toOption {ε : Type} {x : Except ε α} {v : α} (h : x.toOption = some v) :
    x = .ok v := by
  cases x with
  | error fault => cases h
  | ok w => exact congrArg Except.ok (Option.some.inj h)

theorem map_eq_bind (f : α → β) : x.map f = x.bind fun v => .ok (f v) := by
  cases x <;> rfl

/-- The same fault, or the same number up to the sign of zero; NaN agrees with itself. -/
def Agrees : Except Fault Float → Except Fault Float → Prop
  | .ok v, .ok w => v = w ∨ (v == 0) = true ∧ (w == 0) = true
  | .error fault, .error fault' => fault = fault'
  | _, _ => False

variable {y : Except Fault Float}

theorem Agrees.refl (x : Except Fault Float) : Agrees x x := by
  cases x with
  | error fault => rfl
  | ok v => exact .inl rfl

theorem Agrees.eq_ok {v : Float} (h : Agrees (.ok v) y) (hv : (v == 0) = false) : y = .ok v := by
  cases y with
  | error fault => exact h.elim
  | ok w =>
    rcases h with rfl | ⟨hzero, -⟩
    · rfl
    · rw [hzero] at hv
      cases hv

theorem Agrees.symm {x y : Except Fault Float} (h : Agrees x y) : Agrees y x := by
  match x, y, h with
  | .error _, .error _, h => exact Eq.symm h
  | .ok _, .ok _, h => exact h.imp Eq.symm And.symm

theorem Agrees.trans {x y z : Except Fault Float} (hxy : Agrees x y) (hyz : Agrees y z) :
    Agrees x z := by
  match x, y, hxy with
  | .error fault, .error _, hxy =>
    subst hxy
    exact hyz
  | .ok v, .ok w, hxy =>
    rcases hxy with rfl | ⟨hv, hw⟩
    · exact hyz
    · match z, hyz with
      | .ok u, hyz =>
        rcases hyz with rfl | ⟨-, hu⟩
        · exact .inr ⟨hv, hw⟩
        · exact .inr ⟨hv, hu⟩

/-- Each has a fault exactly if the other one has it. -/
def FailsAlike (x : Except Fault α) (y : Except Fault β) : Prop :=
  ∀ fault, x = .error fault ↔ y = .error fault

section FailsAlike

variable {γ : Type} {x : Except Fault α} {y : Except Fault β} {z : Except Fault γ}

theorem FailsAlike.refl (x : Except Fault α) : FailsAlike x x := fun _ => Iff.rfl

theorem FailsAlike.symm (h : FailsAlike x y) : FailsAlike y x := fun fault => (h fault).symm

theorem FailsAlike.trans (hxy : FailsAlike x y) (hyz : FailsAlike y z) : FailsAlike x z :=
  fun fault => (hxy fault).trans (hyz fault)

theorem failsAlike_ok (v : α) (w : β) : FailsAlike (.ok v) (.ok w) := by
  intro fault
  simp

theorem failsAlike_map (f : α → β) (x : Except Fault α) : FailsAlike (x.map f) x := by
  intro fault
  cases x <;> simp [Except.map]

/-- What fails behind an operand does not depend on its value. -/
theorem FailsAlike.bind_map {x' : Except Fault α} (h : FailsAlike x x') (y : Except Fault β)
    (f : α → β → γ) :
    FailsAlike (x.bind fun v => y.map fun w => f v w)
      (x'.bind fun v => y.map fun w => f v w) := by
  cases x with
  | error fault =>
    rw [(h fault).1 rfl]
    exact .refl _
  | ok v =>
    cases x' with
    | error fault => cases (h fault).2 rfl
    | ok v' => exact (failsAlike_map _ y).trans (failsAlike_map _ y).symm

end FailsAlike
end Calculator.Outcome
