import Mathlib
import Gateway.Library.Threads

/-! Bounds on what the calls of a program cost, whatever they are answered. -/
namespace Program

variable {Op : Type} {Res : Op → Type} {α β : Type} {w : Event Op Res → Nat} {n m : Nat}

namespace Prog

/-- In no run do the calls cost more than this in all. -/
def Costs (w : Event Op Res → Nat) : Prog Op Res α → Nat → Prop
  | ret _, _ => True
  | call o k, n => ∀ r, w ⟨o, r⟩ ≤ n ∧ Costs w (k r) (n - w ⟨o, r⟩)

@[simp] theorem costs_ret {a : α} : Costs w (ret a : Prog Op Res α) n := trivial

variable {p q : Prog Op Res α} {f : α → Prog Op Res β} {evs : List (Event Op Res)}

theorem costs_mono (hp : p.Costs w n) (h : n ≤ m) : p.Costs w m := by
  induction p generalizing n m with
  | ret a => trivial
  | call o k ih =>
    intro r
    obtain ⟨hle, hrest⟩ := hp r
    exact ⟨hle.trans h, ih r hrest (by omega)⟩

/-- A call that costs nothing. -/
theorem costs_call_free {o : Op} {k : Res o → Prog Op Res α} (hfree : ∀ r, w ⟨o, r⟩ = 0)
    (hk : ∀ r, (k r).Costs w n) : (call o k).Costs w n := by
  intro r
  rw [hfree r]
  exact ⟨Nat.zero_le n, hk r⟩

/-- A sequence costs at most what its parts cost together. -/
theorem costs_bind (hp : p.Costs w n) (hf : ∀ a, (f a).Costs w m) :
    (p >>= f).Costs w (n + m) := by
  induction p generalizing n with
  | ret a => exact costs_mono (hf a) (Nat.le_add_left m n)
  | call o k ih =>
    intro r
    obtain ⟨hle, hrest⟩ := hp r
    refine ⟨by omega, ?_⟩
    rw [Nat.sub_add_comm hle]
    exact ih r hrest

/-- A first part that costs nothing. -/
theorem costs_bind_free (hp : p.Costs w 0) (hf : ∀ a, (f a).Costs w m) : (p >>= f).Costs w m := by
  have h := costs_bind hp hf
  rwa [Nat.zero_add] at h

/-- A last part that costs nothing. -/
theorem costs_bind_last (hp : p.Costs w n) (hf : ∀ a, (f a).Costs w 0) : (p >>= f).Costs w n :=
  costs_bind hp hf

theorem costs_of_calls {P : Op → Prop} (hp : p.Calls P) (hfree : ∀ o, P o → ∀ r, w ⟨o, r⟩ = 0) :
    p.Costs w n := by
  induction p with
  | ret a => trivial
  | call o k ih => exact costs_call_free (hfree o hp.1) fun r => ih r (hp.2 r)

/-- The rule for what a program has done so far. -/
theorem cost_of_leads (hp : p.Costs w n) (h : p.Leads evs q) : (evs.map w).sum ≤ n := by
  induction evs generalizing p n with
  | nil => exact Nat.zero_le n
  | cons e evs ih =>
    cases p with
    | ret a => exact h.elim
    | call o k =>
      obtain ⟨r, rfl, hrest⟩ := h
      obtain ⟨hle, hk⟩ := hp r
      have htail := ih hk hrest
      rw [List.map_cons, List.sum_cons]
      omega

end Prog

end Program
