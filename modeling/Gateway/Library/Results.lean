import Mathlib

/-! How a computation that may fail came to its outcome. -/
namespace Results

variable {α β ε : Type} {x : Except ε α} {f : α → Except ε β} {b : β} {e : ε}

theorem bind_eq_ok : (x >>= f) = .ok b ↔ ∃ a, x = .ok a ∧ f a = .ok b := by
  cases x <;> simp [bind, Except.bind]

theorem toOption_eq_some {a : α} : x.toOption = some a ↔ x = .ok a := by
  cases x <;> simp [Except.toOption]

/-- What holds of the outcome: `P` of a value, `E` of an error. -/
def Meets (E : ε → Prop) (P : α → Prop) : Except ε α → Prop
  | .ok a => P a
  | .error e => E e

variable {E : ε → Prop} {P : α → Prop} {Q : β → Prop}

@[simp] theorem meets_ok {a : α} : Meets E P (.ok a) ↔ P a := Iff.rfl

@[simp] theorem meets_pure {a : α} : Meets E P (pure a) ↔ P a := Iff.rfl

@[simp] theorem meets_error : Meets E P (.error e : Except ε α) ↔ E e := Iff.rfl

theorem meets_bind (hx : Meets E P x) (hf : ∀ a, P a → Meets E Q (f a)) :
    Meets E Q (x >>= f) := by
  cases x with
  | ok a => exact hf a hx
  | error e => exact hx

theorem Meets.mono {P' : α → Prop} (h : Meets E P x) (hp : ∀ a, P a → P' a) : Meets E P' x := by
  cases x with
  | ok a => exact hp a h
  | error e => exact h

theorem Meets.of_error (h : Meets E P x) (hx : x = .error e) : E e := by
  subst hx
  exact h

end Results
