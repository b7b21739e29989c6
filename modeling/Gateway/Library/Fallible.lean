import Mathlib
import Gateway.Library.Program

/-! Programs that may fail, and those among them that cannot. -/
namespace Program

variable {Op : Type} {Res : Op → Type} {α β ε : Type}

/-- A program that returns a value or fails with an `ε`. -/
abbrev Fallible (ε : Type) (Op : Type) (Res : Op → Type) (α : Type) :=
  ExceptT ε (Prog Op Res) α

theorem Prog.bind_ret (p : Prog Op Res α) : (p >>= ret) = p := by
  induction p with
  | ret a => rfl
  | call o k ih =>
    rw [call_bind]
    congr 1
    funext r
    exact ih r

instance : LawfulMonad (Prog Op Res) :=
  LawfulMonad.mk' _ Prog.bind_ret (fun _ _ => rfl) Prog.bind_assoc

namespace Fallible

/-- Every run ends with a value. -/
def NeverFails (x : Fallible ε Op Res α) : Prop :=
  ∀ evs r, Prog.Runs x.run evs r → ∃ a, r = .ok a

/-- A computation that did not fail is followed by the rest of the program. -/
@[simp] theorem liftM_ok_bind (a : α) (f : α → Fallible ε Op Res β) :
    (liftM (Except.ok a : Except ε α) >>= f) = f a := rfl

@[simp] theorem liftM_ok (a : α) :
    (liftM (Except.ok a : Except ε α) : Fallible ε Op Res α) = pure a := rfl

theorem liftM_ite {c : Prop} [Decidable c] (p q : Prog Op Res α) :
    (liftM (if c then p else q) : Fallible ε Op Res α) = if c then liftM p else liftM q := by
  split <;> rfl

/-- What follows a program that does not fail matters only for the values it may return. -/
theorem liftM_bind_congr {P : α → Prop} {p : Prog Op Res α} {f g : α → Fallible ε Op Res β}
    (hp : Prog.Returns P p) (h : ∀ a, P a → f a = g a) :
    (liftM p >>= f : Fallible ε Op Res β) = liftM p >>= g := by
  have hrun : ∀ k : α → Fallible ε Op Res β,
      (liftM p >>= k : Fallible ε Op Res β).run = p >>= fun a => (k a).run :=
    fun k => ExceptT.run_bind_lift p k
  apply ExceptT.ext
  rw [hrun, hrun]
  exact Prog.bind_congr_of_returns hp fun a ha => by rw [h a ha]

/-- The runs of a program that does not fail at any step. -/
theorem runs_liftM {p : Prog Op Res α} {evs : List (Event Op Res)} {r : Except ε α} :
    Prog.Runs (liftM p : Fallible ε Op Res α).run evs r ↔
      ∃ a, r = .ok a ∧ Prog.Runs p evs a := by
  change Prog.Runs (p >>= fun a => .ret (.ok a)) evs r ↔ _
  rw [Prog.runs_bind]
  constructor
  · rintro ⟨pre, a, post, rfl, hp, rfl, rfl⟩
    exact ⟨a, rfl, by rwa [List.append_nil]⟩
  · rintro ⟨a, rfl, hp⟩
    exact ⟨evs, a, [], (List.append_nil evs).symm, hp, rfl, rfl⟩

theorem neverFails_liftM (p : Prog Op Res α) : NeverFails (liftM p : Fallible ε Op Res α) := by
  intro evs r h
  obtain ⟨a, rfl, -⟩ := runs_liftM.mp h
  exact ⟨a, rfl⟩

theorem neverFails_of_eq {x : Fallible ε Op Res α} {p : Prog Op Res α} (h : x = liftM p) :
    NeverFails x := by
  rw [h]
  exact neverFails_liftM p

end Fallible

end Program
