import Mathlib
import Gateway.Library.Program

/-! Ledgers that follow the calls of a program, and weakest preconditions over them. -/
namespace Program

variable {Op : Type} {Res : Op → Type} {α β γ : Type}

/-- A ledger follows each call, or the call breaks its rules; the environment keeps `promised`. -/
structure Monitor (Op : Type) (Res : Op → Type) (γ : Type) where
  promised : Event Op Res → Prop
  step : γ → Event Op Res → Option γ

namespace Monitor

variable (M : Monitor Op Res γ) {p : Prog Op Res α} {f : α → Prog Op Res β}
  {post post' : α → γ → Prop} {evs evs' : List (Event Op Res)} {g g' : γ} {e : Event Op Res}

/-- The ledger after a trace that breaks no rule. -/
def follow (g : γ) (evs : List (Event Op Res)) : Option γ := evs.foldlM M.step g

/-- Every run from this ledger keeps the rules and ends as `post` says. -/
def wp : Prog Op Res α → (α → γ → Prop) → γ → Prop
  | .ret a, post, g => post a g
  | .call o k, post, g =>
    ∀ r, M.promised ⟨o, r⟩ → ∃ g', M.step g ⟨o, r⟩ = some g' ∧ wp (k r) post g'

@[simp] theorem follow_nil : M.follow g [] = some g := rfl

@[simp] theorem follow_cons : M.follow g (e :: evs) = (M.step g e).bind fun g' => M.follow g' evs :=
  rfl

@[simp] theorem wp_ret {a : α} : M.wp (.ret a) post g ↔ post a g := Iff.rfl

variable {M}

theorem wp_mono (hp : M.wp p post g) (h : ∀ a g, post a g → post' a g) : M.wp p post' g := by
  induction p generalizing g with
  | ret a => exact h a g hp
  | call o k ih =>
    intro r hr
    obtain ⟨g', hstep, hk⟩ := hp r hr
    exact ⟨g', hstep, ih r hk⟩

/-- What a program may return is known besides what its ledger says. -/
theorem wp_and_returns {Q : α → Prop} (hp : M.wp p post g) (hq : p.Returns Q) :
    M.wp p (fun a g' => post a g' ∧ Q a) g := by
  induction p generalizing g with
  | ret a => exact ⟨hp, hq⟩
  | call o k ih =>
    intro r hr
    obtain ⟨g', hstep, hk⟩ := hp r hr
    exact ⟨g', hstep, ih r hk (hq r)⟩

/-- A sequence is judged by its first part, with the judgement of the rest as postcondition. -/
theorem wp_bind {post : β → γ → Prop} (h : M.wp p (fun a g => M.wp (f a) post g) g) :
    M.wp (p >>= f) post g := by
  induction p generalizing g with
  | ret a => exact h
  | call o k ih =>
    intro r hr
    obtain ⟨g', hstep, hk⟩ := h r hr
    exact ⟨g', hstep, ih r hk⟩

/-- A call that leaves the ledger as it is. -/
theorem wp_call_of_steps {o : Op} {k : Res o → Prog Op Res α}
    (hstep : ∀ r, M.promised ⟨o, r⟩ → M.step g ⟨o, r⟩ = some g)
    (h : ∀ r, M.promised ⟨o, r⟩ → M.wp (k r) post g) : M.wp (.call o k) post g :=
  fun r hr => ⟨g, hstep r hr, h r hr⟩

/-- A program whose calls all leave the ledger as it is. -/
theorem wp_of_calls {P : Op → Prop} (hp : p.Calls P)
    (hstep : ∀ o, P o → ∀ r, M.promised ⟨o, r⟩ → M.step g ⟨o, r⟩ = some g) :
    M.wp p (fun _ g' => g' = g) g := by
  induction p with
  | ret a => exact rfl
  | call o k ih => exact wp_call_of_steps (hstep o hp.1) fun r _ => ih r (hp.2 r)

/-- The monitor that keeps no account, and only forbids calls. -/
def only (Op : Type) (Res : Op → Type) (P : Op → Prop) [DecidablePred P] : Monitor Op Res Unit where
  promised := fun _ => True
  step := fun _ e => if P e.op then some () else none

/-- A program that keeps this monitor's rules makes no forbidden call. -/
theorem calls_of_wp [∀ o, Nonempty (Res o)] {P : Op → Prop} [DecidablePred P]
    {post : α → Unit → Prop} (hp : (only Op Res P).wp p post ()) : p.Calls P := by
  induction p with
  | ret a => trivial
  | call o k ih =>
    have hstep : ∀ r : Res o, P o ∧ (only Op Res P).wp (k r) post () := by
      intro r
      obtain ⟨g', hg, hrest⟩ := hp r trivial
      exact ⟨by simpa [only] using hg, hrest⟩
    obtain ⟨r⟩ : Nonempty (Res o) := inferInstance
    exact ⟨(hstep r).1, fun r => ih r (hstep r).2⟩

/-- The rule for whole runs. -/
theorem follow_of_wp {a : α} (hp : M.wp p post g) (hrun : p.Runs evs a)
    (hkept : ∀ e ∈ evs, M.promised e) : ∃ g', M.follow g evs = some g' ∧ post a g' := by
  induction p generalizing g evs with
  | ret b =>
    obtain ⟨rfl, rfl⟩ := hrun
    exact ⟨g, rfl, hp⟩
  | call o k ih =>
    obtain ⟨r, rest, rfl, hrest⟩ := hrun
    obtain ⟨g₁, hstep, hk⟩ := hp r (hkept _ List.mem_cons_self)
    obtain ⟨g', hfollow, hpost⟩ := ih r hk hrest fun e he => hkept e (List.mem_cons_of_mem _ he)
    refine ⟨g', ?_, hpost⟩
    rw [follow_cons, hstep]
    exact hfollow

end Monitor

end Program
