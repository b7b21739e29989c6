import Mathlib

/-! Runs of labelled transition systems and the properties that hold along them. -/
namespace Transition

variable {State Label : Type} {Step : State → Label → State → Prop} {σ τ ρ : State} {l : Label}
  {tr : List (State × Label)}

/-- A run, listed as the state before each step with the label of the step. -/
inductive Run (Step : State → Label → State → Prop) :
    State → List (State × Label) → State → Prop
  | refl (σ : State) : Run Step σ [] σ
  | snoc {σ τ υ : State} {l : Label} {tr : List (State × Label)}
      (run : Run Step σ tr τ) (step : Step τ l υ) : Run Step σ (tr ++ [(τ, l)]) υ

/-- The states a run goes through, its last one included. -/
def Visited (tr : List (State × Label)) (τ ρ : State) : Prop := ρ = τ ∨ ∃ l, (ρ, l) ∈ tr

theorem Visited.snoc (h : Visited tr τ ρ) (υ : State) : Visited (tr ++ [(τ, l)]) υ ρ := by
  right
  rcases h with rfl | ⟨l', hmem⟩
  · exact ⟨l, by simp⟩
  · exact ⟨l', List.mem_append_left _ hmem⟩

/-- A property kept by every step that meets a condition holds after a run of such steps. -/
theorem Run.invariant {I : State → Prop} {C : State → Label → Prop}
    (hstep : ∀ {σ l τ}, I σ → C σ l → Step σ l τ → I τ) (hrun : Run Step σ tr τ) (hI : I σ)
    (hC : ∀ p ∈ tr, C p.1 p.2) : I τ := by
  induction hrun with
  | refl => exact hI
  | @snoc τ υ l tr run step ih =>
    have hτ := ih fun p hp => hC p (List.mem_append_left _ hp)
    exact hstep hτ (hC (τ, l) (by simp)) step

/-- A property kept by every step holds after every run. -/
theorem Run.preserves {I : State → Prop} (hstep : ∀ {σ l τ}, I σ → Step σ l τ → I τ)
    (hrun : Run Step σ tr τ) (hI : I σ) : I τ :=
  hrun.invariant (C := fun _ _ => True) (fun hσ _ h => hstep hσ h) hI fun _ _ => trivial

theorem Run.trans {tr' : List (State × Label)} (hrun : Run Step σ tr τ)
    (hrun' : Run Step τ tr' ρ) : Run Step σ (tr ++ tr') ρ := by
  induction hrun' with
  | refl => rwa [List.append_nil]
  | snoc run step ih =>
    rw [← List.append_assoc]
    exact .snoc ih step

/-- What a map makes of every step, it makes of every run. -/
theorem Run.map {State' : Type} {Step' : State' → Label → State' → Prop} (f : State → State')
    (hstep : ∀ {σ l τ}, Step σ l τ → Step' (f σ) l (f τ)) (hrun : Run Step σ tr τ) :
    Run Step' (f σ) (tr.map fun p => (f p.1, p.2)) (f τ) := by
  induction hrun with
  | refl => exact .refl _
  | snoc run step ih =>
    rw [List.map_append]
    exact .snoc ih (hstep step)

/-- A visited state is reached by an initial part of the run. -/
theorem Run.to_visited (hrun : Run Step σ tr τ) (hρ : Visited tr τ ρ) :
    ∃ pre, Run Step σ pre ρ ∧ pre <+: tr := by
  induction hrun generalizing ρ with
  | refl =>
    rcases hρ with rfl | ⟨l, hmem⟩
    · exact ⟨[], .refl _, List.prefix_rfl⟩
    · cases hmem
  | @snoc τ υ l tr run step ih =>
    rcases hρ with rfl | ⟨l', hmem⟩
    · exact ⟨_, .snoc run step, List.prefix_rfl⟩
    · rcases List.mem_append.mp hmem with hmem | hmem
      · obtain ⟨pre, hpre, hle⟩ := ih (Or.inr ⟨l', hmem⟩)
        exact ⟨pre, hpre, hle.trans (List.prefix_append _ _)⟩
      · obtain ⟨rfl, rfl⟩ := Prod.mk.inj (List.mem_singleton.mp hmem)
        exact ⟨tr, run, List.prefix_append _ _⟩

theorem Run.invariant_visited {I : State → Prop} {C : State → Label → Prop}
    (hstep : ∀ {σ l τ}, I σ → C σ l → Step σ l τ → I τ) (hrun : Run Step σ tr τ) (hI : I σ)
    (hC : ∀ p ∈ tr, C p.1 p.2) (hρ : Visited tr τ ρ) : I ρ := by
  obtain ⟨pre, hpre, hle⟩ := hrun.to_visited hρ
  exact hpre.invariant hstep hI fun p hp => hC p (hle.subset hp)

/-- Every step of a run starts where a run has led and ends in a visited state. -/
theorem Run.step_of_mem (hrun : Run Step σ tr τ) (hmem : (ρ, l) ∈ tr) :
    ∃ pre υ, Run Step σ pre ρ ∧ Step ρ l υ ∧ Visited tr τ υ := by
  induction hrun with
  | refl => cases hmem
  | @snoc τ υ l' tr run step ih =>
    rcases List.mem_append.mp hmem with hmem | hmem
    · obtain ⟨pre, υ', hpre, hstep, hvis⟩ := ih hmem
      exact ⟨pre, υ', hpre, hstep, hvis.snoc υ⟩
    · obtain ⟨rfl, rfl⟩ := Prod.mk.inj (List.mem_singleton.mp hmem)
      exact ⟨tr, υ, run, step, Or.inl rfl⟩

end Transition
