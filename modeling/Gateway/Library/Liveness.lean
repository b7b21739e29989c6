import Mathlib
import Gateway.Library.Program
import Gateway.Library.Transition

/-! Infinite executions, weak fairness, and what must happen along them. -/
namespace Transition

variable {State Label V : Type} {Step : State → Label → State → Prop}

/-- An infinite execution; the state stays as it is where nothing happens. -/
structure Execution (Step : State → Label → State → Prop) where
  state : Nat → State
  event : Nat → Option Label
  pause : ∀ n, event n = none → state (n + 1) = state n
  step : ∀ n l, event n = some l → Step (state n) l (state (n + 1))

/-- From states in `I`, steps of one kind can always be taken and lower the variant, and no other
step raises it, until a state is reached that is a goal. -/
structure Progress (Step : State → Label → State → Prop) (kind : Label → Prop)
    (I goal : State → Prop) (r : V → V → Prop) (variant : State → V) : Prop where
  enabled : ∀ σ, I σ → ∃ l τ, kind l ∧ Step σ l τ
  lowers : ∀ σ l τ, I σ → kind l → Step σ l τ → goal τ ∨ I τ ∧ r (variant τ) (variant σ)
  keeps : ∀ σ l τ, I σ → ¬ kind l → Step σ l τ → goal τ ∨ I τ ∧ variant τ = variant σ

/-- One case analysis of a step, for both kinds. -/
theorem Progress.of_step {Step : State → Label → State → Prop} {kind : Label → Prop}
    {I goal : State → Prop} {r : V → V → Prop} {variant : State → V}
    (enabled : ∀ σ, I σ → ∃ l τ, kind l ∧ Step σ l τ)
    (step : ∀ σ l τ, I σ → Step σ l τ → goal τ ∨
      I τ ∧ (kind l → r (variant τ) (variant σ)) ∧ (¬ kind l → variant τ = variant σ)) :
    Progress Step kind I goal r variant where
  enabled := enabled
  lowers σ l τ hσ hl hstep := (step σ l τ hσ hstep).imp_right fun h => ⟨h.1, h.2.1 hl⟩
  keeps σ l τ hσ hl hstep := (step σ l τ hσ hstep).imp_right fun h => ⟨h.1, h.2.2 hl⟩

namespace Execution

variable (E : Execution Step) {kind : Label → Prop} {I goal : State → Prop} {r : V → V → Prop}
  {variant : State → V} {m n : Nat}

/-- Weak fairness: a kind of step that can be taken from some moment on is taken. -/
def Fair (kind : Label → Prop) : Prop :=
  ∀ n, (∀ m, n ≤ m → ∃ l τ, kind l ∧ Step (E.state m) l τ) →
    ∃ m l, n ≤ m ∧ E.event m = some l ∧ kind l

/-- What happens between two moments is a run. -/
theorem exists_run (h : m ≤ n) : ∃ tr, Run Step (E.state m) tr (E.state n) := by
  induction n, h using Nat.le_induction with
  | base => exact ⟨[], .refl _⟩
  | succ n hmn ih =>
    obtain ⟨tr, hrun⟩ := ih
    cases he : E.event n with
    | none => exact ⟨tr, by rwa [E.pause n he]⟩
    | some l => exact ⟨_, .snoc hrun (E.step n l he)⟩

/-- What every step keeps, of those that are taken, holds ever after. -/
theorem always_of {C : State → Label → Prop} (hstep : ∀ {σ l τ}, I σ → C σ l → Step σ l τ → I τ)
    (hC : ∀ i l, E.event i = some l → C (E.state i) l) (h : I (E.state m)) (hmn : m ≤ n) :
    I (E.state n) := by
  induction n, hmn using Nat.le_induction with
  | base => exact h
  | succ n hmn ih =>
    cases he : E.event n with
    | none => rwa [E.pause n he]
    | some l => exact hstep ih (hC n l he) (E.step n l he)

theorem always (hstep : ∀ {σ l τ}, I σ → Step σ l τ → I τ) (h : I (E.state m)) (hmn : m ≤ n) :
    I (E.state n) :=
  E.always_of (C := fun _ _ => True) (fun hσ _ hs => hstep hσ hs) (fun _ _ _ => trivial) h hmn

/-- Where no step can be taken, everything stays as it is. -/
theorem stays_of_stuck (hstuck : ∀ l τ, ¬ Step (E.state m) l τ) (hmn : m ≤ n) :
    E.state n = E.state m := by
  induction n, hmn using Nat.le_induction with
  | base => rfl
  | succ n hmn ih =>
    cases he : E.event n with
    | none => rw [E.pause n he, ih]
    | some l =>
      have hstep := E.step n l he
      rw [ih] at hstep
      exact (hstuck l _ hstep).elim

variable {E}

/-- Without a step of the kind, and short of a goal, the variant stays. -/
theorem stays (h : Progress Step kind I goal r variant) (hI : I (E.state n))
    (hno : ∀ m, n ≤ m → ¬ goal (E.state m)) {m : Nat} (hnm : n ≤ m)
    (hother : ∀ j, n ≤ j → j < m → ∀ l, E.event j = some l → ¬ kind l) :
    I (E.state m) ∧ variant (E.state m) = variant (E.state n) := by
  induction m, hnm using Nat.le_induction with
  | base => exact ⟨hI, rfl⟩
  | succ m hnm ih =>
    obtain ⟨hm, hvariant⟩ := ih fun j hj hjm => hother j hj (by omega)
    cases he : E.event m with
    | none =>
      rw [E.pause m he]
      exact ⟨hm, hvariant⟩
    | some l =>
      rcases h.keeps _ l _ hm (hother m hnm (by omega) l he) (E.step m l he) with
        hgoal | ⟨hm', hvariant'⟩
      · exact (hno (m + 1) (by omega) hgoal).elim
      · exact ⟨hm', hvariant'.trans hvariant⟩

/-- Under weak fairness a variant that cannot fall for ever leads to a goal. -/
theorem reaches (h : Progress Step kind I goal r variant) (wf : WellFounded r)
    (hfair : E.Fair kind) (hI : I (E.state n)) : ∃ m, n ≤ m ∧ goal (E.state m) := by
  classical
  generalize hv : variant (E.state n) = v
  induction v using wf.induction generalizing n with
  | _ v ih =>
    by_contra hnone
    have hno : ∀ m, n ≤ m → ¬ goal (E.state m) := fun m hm hgoal => hnone ⟨m, hm, hgoal⟩
    by_cases htaken : ∃ m, n ≤ m ∧ ∃ l, E.event m = some l ∧ kind l
    · -- the first step of the kind lowers the variant
      obtain ⟨hle, l, he, hl⟩ := Nat.find_spec htaken
      have hother : ∀ j, n ≤ j → j < Nat.find htaken → ∀ l, E.event j = some l → ¬ kind l := by
        intro j hj hlt l he hl
        exact Nat.find_min htaken hlt ⟨hj, l, he, hl⟩
      generalize Nat.find htaken = m at hle he hother
      obtain ⟨hm, hvariant⟩ := stays h hI hno hle hother
      rcases h.lowers _ l _ hm hl (E.step m l he) with hgoal | ⟨hm', hlower⟩
      · exact hno (m + 1) (by omega) hgoal
      · rw [hvariant, hv] at hlower
        obtain ⟨j, hj, hgoal⟩ := ih _ hlower hm' rfl
        exact hno j (by omega) hgoal
    · have hnever : ∀ m, n ≤ m → ∀ l, E.event m = some l → ¬ kind l := fun m hm l he hl =>
        htaken ⟨m, hm, l, he, hl⟩
      obtain ⟨m, l, hm, he, hl⟩ := hfair n fun m hm =>
        h.enabled _ (stays h hI hno hm fun j hj _ => hnever j hj).1
      exact hnever m hm l he hl

end Execution

variable {σ τ ρ : State} {l : Label} {tr : List (State × Label)} {n : Nat}

/-- The state at a moment of a run, which stays at its end. -/
def stateAt (tr : List (State × Label)) (τ : State) (n : Nat) : State :=
  (tr[n]?.map Prod.fst).getD τ

theorem visited_stateAt (tr : List (State × Label)) (τ : State) (n : Nat) :
    Visited tr τ (stateAt tr τ n) := by
  cases h : tr[n]? with
  | none => exact .inl (by simp [stateAt, h])
  | some p => exact .inr ⟨p.2, by simpa [stateAt, h] using List.mem_of_getElem? h⟩

theorem Run.step_at (hrun : Run Step σ tr τ) (hn : tr[n]? = some (ρ, l)) :
    Step ρ l (stateAt tr τ (n + 1)) := by
  induction hrun with
  | refl => cases hn
  | @snoc τ υ l' tr run step ih =>
    have hlt := (List.getElem?_eq_some_iff.mp hn).1
    rw [List.length_append, List.length_singleton] at hlt
    rcases Nat.lt_or_ge n tr.length with hin | hend
    · rw [List.getElem?_append_left hin] at hn
      have hstep := ih hn
      have hsame : stateAt (tr ++ [(τ, l')]) υ (n + 1) = stateAt tr τ (n + 1) := by
        rcases Nat.lt_or_ge (n + 1) tr.length with hlater | hlast
        · rw [stateAt, stateAt, List.getElem?_append_left hlater]
          simp [hlater]
        · have hlen : n + 1 = tr.length := by omega
          simp [stateAt, hlen]
      rwa [hsame]
    · obtain rfl : n = tr.length := by omega
      simp only [List.getElem?_concat_length, Option.some.injEq, Prod.mk.injEq] at hn
      obtain ⟨rfl, rfl⟩ := hn
      simpa [stateAt] using step

/-- A run after which nothing happens any more. -/
def Execution.ofRun (hrun : Run Step σ tr τ) : Execution Step where
  state := stateAt tr τ
  event n := tr[n]?.map Prod.snd
  pause n hn := by
    have hlen : tr.length ≤ n := List.getElem?_eq_none_iff.mp (Option.map_eq_none_iff.mp hn)
    rw [stateAt, stateAt, List.getElem?_eq_none hlen, List.getElem?_eq_none (by omega)]
  step n l hn := by
    obtain ⟨⟨ρ, l'⟩, hget, rfl⟩ := Option.map_eq_some_iff.mp hn
    rw [stateAt, hget]
    exact hrun.step_at hget

theorem Execution.state_ofRun (hrun : Run Step σ tr τ) (hn : tr.length ≤ n) :
    (Execution.ofRun hrun).state n = τ := by
  rw [Execution.ofRun]
  simp [stateAt, hn]

/-- It is fair where no step of the kind can be taken at its end. -/
theorem Execution.fair_ofRun {kind : Label → Prop} (hrun : Run Step σ tr τ)
    (hend : ∀ l υ, kind l → ¬ Step τ l υ) : (Execution.ofRun hrun).Fair kind := by
  intro n hall
  obtain ⟨l, υ, hl, hstep⟩ := hall (max n tr.length) (le_max_left _ _)
  rw [Execution.state_ofRun hrun (le_max_right _ _)] at hstep
  exact (hend l υ hl hstep).elim

end Transition

namespace Program

variable {Op : Type} {Res : Op → Type} {α : Type}

/-- What an answer leaves of a program. -/
def Prog.Follows (q p : Prog Op Res α) : Prop := ∃ o k r, p = .call o k ∧ q = k r

/-- No program can go on for ever. -/
theorem Prog.follows_wf : WellFounded (@Prog.Follows Op Res α) := by
  constructor
  intro p
  induction p with
  | ret a =>
    constructor
    rintro q ⟨o, k, r, heq, -⟩
    cases heq
  | call o k ih =>
    constructor
    rintro q ⟨o', k', r, heq, rfl⟩
    cases heq
    exact ih r

end Program
