import Mathlib

/-! Programs as trees of calls to an environment, and the traces of their runs. -/
namespace Program

/-- A program returns, or makes a call `o` and continues with whatever answer it gets. -/
inductive Prog (Op : Type) (Res : Op → Type) (α : Type) where
  | ret (a : α)
  | call (o : Op) (k : Res o → Prog Op Res α)

/-- One call of a run with its answer. -/
structure Event (Op : Type) (Res : Op → Type) where
  op : Op
  res : Res op

variable {Op : Type} {Res : Op → Type} {α β σ : Type}

namespace Prog

def bind : Prog Op Res α → (α → Prog Op Res β) → Prog Op Res β
  | ret a, f => f a
  | call o k, f => call o fun r => (k r).bind f

instance : Monad (Prog Op Res) where
  pure := ret
  bind := bind

/-- A single call that hands its answer back. -/
def perform (o : Op) : Prog Op Res (Res o) := call o ret

/-- The run with trace `evs` ends and returns `b`. -/
def Runs : Prog Op Res α → List (Event Op Res) → α → Prop
  | ret a, evs, b => evs = [] ∧ b = a
  | call o k, evs, b => ∃ r rest, evs = ⟨o, r⟩ :: rest ∧ Runs (k r) rest b

/-- Runs the program against an environment that answers from a state, or blocks. -/
def against (env : (o : Op) → σ → Option (Res o × σ)) : Prog Op Res α → σ → Prog Op Res α × σ
  | ret a, st => (ret a, st)
  | call o k, st =>
    match env o st with
    | some (r, st') => against env (k r) st'
    | none => (call o k, st)

/-- Every call the program may make, after any answers, satisfies `P`. -/
def Calls (P : Op → Prop) : Prog Op Res α → Prop
  | ret _ => True
  | call o k => P o ∧ ∀ r, Calls P (k r)

/-- The call that the program makes first. -/
def first : Prog Op Res α → Option Op
  | ret _ => none
  | call o _ => some o

/-- Every value the program may return, after any answers, satisfies `P`. -/
def Returns (P : α → Prop) : Prog Op Res α → Prop
  | ret a => P a
  | call _ k => ∀ r, Returns P (k r)

/-- The program makes these calls, gets these answers, and has `q` left to do. -/
def Leads : Prog Op Res α → List (Event Op Res) → Prog Op Res α → Prop
  | p, [], q => q = p
  | ret _, _ :: _, _ => False
  | call o k, e :: evs, q => ∃ r, e = ⟨o, r⟩ ∧ Leads (k r) evs q

@[simp] theorem pure_eq (a : α) : (pure a : Prog Op Res α) = ret a := rfl

@[simp] theorem ret_bind (a : α) (f : α → Prog Op Res β) : (ret a >>= f) = f a := rfl

@[simp] theorem call_bind (o : Op) (k : Res o → Prog Op Res α) (f : α → Prog Op Res β) :
    (call o k >>= f) = call o fun r => k r >>= f := rfl

@[simp] theorem perform_bind (o : Op) (f : Res o → Prog Op Res β) :
    (perform o >>= f) = call o f := rfl

@[simp] theorem runs_ret {a b : α} {evs : List (Event Op Res)} :
    Runs (ret a) evs b ↔ evs = [] ∧ b = a := Iff.rfl

@[simp] theorem runs_call {o : Op} {k : Res o → Prog Op Res α} {evs : List (Event Op Res)}
    {b : α} : Runs (call o k) evs b ↔ ∃ r rest, evs = ⟨o, r⟩ :: rest ∧ Runs (k r) rest b :=
  Iff.rfl

theorem bind_assoc {γ : Type} (p : Prog Op Res α) (f : α → Prog Op Res β)
    (g : β → Prog Op Res γ) : (p >>= f >>= g) = p >>= fun a => f a >>= g := by
  induction p with
  | ret a => rfl
  | call o k ih =>
    simp only [call_bind]
    congr 1
    funext r
    exact ih r

/-- A run of a sequence is a run of its first part followed by a run of the second. -/
theorem runs_bind {p : Prog Op Res α} {f : α → Prog Op Res β} {evs : List (Event Op Res)}
    {b : β} : Runs (p >>= f) evs b ↔
      ∃ pre a post, evs = pre ++ post ∧ Runs p pre a ∧ Runs (f a) post b := by
  induction p generalizing evs with
  | ret a =>
    constructor
    · intro h
      exact ⟨[], a, evs, rfl, ⟨rfl, rfl⟩, h⟩
    · rintro ⟨pre, a', post, rfl, ⟨rfl, rfl⟩, h⟩
      exact h
  | call o k ih =>
    constructor
    · rintro ⟨r, rest, rfl, h⟩
      obtain ⟨pre, a, post, rfl, hp, hf⟩ := (ih r).mp h
      exact ⟨⟨o, r⟩ :: pre, a, post, rfl, ⟨r, pre, rfl, hp⟩, hf⟩
    · rintro ⟨_, a, post, rfl, ⟨r, pre, rfl, hp⟩, hf⟩
      exact ⟨r, pre ++ post, rfl, (ih r).mpr ⟨pre, a, post, rfl, hp, hf⟩⟩

/-- Where every call can be answered, every program can run to its end. -/
theorem exists_runs [h : ∀ o, Nonempty (Res o)] (p : Prog Op Res α) : ∃ evs a, Runs p evs a := by
  induction p with
  | ret a => exact ⟨[], a, rfl, rfl⟩
  | call o k ih =>
    obtain ⟨r⟩ := h o
    obtain ⟨evs, a, hrun⟩ := ih r
    exact ⟨⟨o, r⟩ :: evs, a, r, evs, rfl, hrun⟩

theorem calls_mono {P Q : Op → Prop} {p : Prog Op Res α} (h : ∀ o, P o → Q o)
    (hp : Calls P p) : Calls Q p := by
  induction p with
  | ret a => trivial
  | call o k ih => exact ⟨h o hp.1, fun r => ih r (hp.2 r)⟩

theorem calls_bind {P : Op → Prop} {p : Prog Op Res α} {f : α → Prog Op Res β}
    (hp : Calls P p) (hf : ∀ a, Calls P (f a)) : Calls P (p >>= f) := by
  induction p with
  | ret a => exact hf a
  | call o k ih => exact ⟨hp.1, fun r => ih r (hp.2 r)⟩

theorem returns_bind {P : β → Prop} {p : Prog Op Res α} {f : α → Prog Op Res β}
    (hf : ∀ a, Returns P (f a)) : Returns P (p >>= f) := by
  induction p with
  | ret a => exact hf a
  | call o k ih => exact fun r => ih r

/-- What follows a program matters only for the values it may return. -/
theorem bind_congr_of_returns {P : α → Prop} {p : Prog Op Res α} {f g : α → Prog Op Res β}
    (hp : Returns P p) (h : ∀ a, P a → f a = g a) : (p >>= f) = p >>= g := by
  induction p with
  | ret a => exact h a hp
  | call o k ih =>
    rw [call_bind, call_bind]
    congr 1
    funext r
    exact ih r (hp r)

theorem of_returns {P : α → Prop} {p : Prog Op Res α} {evs : List (Event Op Res)} {a : α}
    (hp : Returns P p) (h : Runs p evs a) : P a := by
  induction p generalizing evs with
  | ret b =>
    obtain ⟨-, rfl⟩ := h
    exact hp
  | call o k ih =>
    obtain ⟨r, rest, -, hrest⟩ := h
    exact ih r (hp r) hrest

theorem calls_of_runs {P : Op → Prop} {p : Prog Op Res α} {evs : List (Event Op Res)} {a : α}
    (hp : Calls P p) (h : Runs p evs a) : ∀ e ∈ evs, P e.op := by
  induction p generalizing evs with
  | ret b =>
    obtain ⟨rfl, _⟩ := h
    intro e he
    cases he
  | call o k ih =>
    obtain ⟨r, rest, rfl, h⟩ := h
    intro e he
    rcases List.mem_cons.mp he with rfl | he
    · exact hp.1
    · exact ih r (hp.2 r) h e he

@[simp] theorem leads_nil {p q : Prog Op Res α} : p.Leads [] q ↔ q = p := by
  cases p <;> rfl

theorem leads_cons {p q : Prog Op Res α} {o : Op} {r : Res o} {evs : List (Event Op Res)} :
    p.Leads (⟨o, r⟩ :: evs) q ↔ ∃ next, p = .call o next ∧ (next r).Leads evs q := by
  cases p with
  | ret a =>
    constructor
    · exact False.elim
    · rintro ⟨next, heq, -⟩
      cases heq
  | call o' next =>
    constructor
    · rintro ⟨r', heq, h⟩
      cases heq
      exact ⟨next, rfl, h⟩
    · rintro ⟨next', heq, h⟩
      cases heq
      exact ⟨r, rfl, h⟩

/-- A complete run has a program left at every moment. -/
theorem exists_leads {p : Prog Op Res α} {evs evs' : List (Event Op Res)} {a : α}
    (h : p.Runs (evs ++ evs') a) : ∃ q, p.Leads evs q ∧ q.Runs evs' a := by
  induction evs generalizing p with
  | nil => exact ⟨p, leads_nil.mpr rfl, h⟩
  | cons e evs ih =>
    cases p with
    | ret b => cases h.1
    | call o next =>
      obtain ⟨r, rest, heq, h⟩ := h
      cases heq
      obtain ⟨q, hleads, hrun⟩ := ih h
      exact ⟨q, ⟨r, rfl, hleads⟩, hrun⟩

theorem leads_ret {a : α} {evs : List (Event Op Res)} {q : Prog Op Res α}
    (h : Leads (ret a) evs q) : evs = [] ∧ q = ret a := by
  cases evs with
  | nil => exact ⟨rfl, h⟩
  | cons e evs => exact h.elim

/-- The complete runs are those that lead to a returned value. -/
theorem runs_iff_leads {p : Prog Op Res α} {evs : List (Event Op Res)} {a : α} :
    Runs p evs a ↔ Leads p evs (ret a) := by
  induction p generalizing evs with
  | ret b =>
    constructor
    · rintro ⟨rfl, rfl⟩
      rfl
    · intro h
      obtain ⟨rfl, hret⟩ := leads_ret h
      exact ⟨rfl, ret.inj hret⟩
  | call o k ih =>
    cases evs with
    | nil =>
      constructor
      · rintro ⟨r, rest, hnil, -⟩
        cases hnil
      · intro h
        cases h
    | cons e evs =>
      constructor
      · rintro ⟨r, rest, heq, hrest⟩
        cases heq
        exact ⟨r, rfl, (ih r).mp hrest⟩
      · rintro ⟨r, rfl, hrest⟩
        exact ⟨r, evs, rfl, (ih r).mpr hrest⟩

theorem leads_append {p q q' : Prog Op Res α} {evs evs' : List (Event Op Res)}
    (h : Leads p evs q) (h' : Leads q evs' q') : Leads p (evs ++ evs') q' := by
  induction evs generalizing p with
  | nil =>
    obtain rfl : q = p := by simpa [Leads] using h
    exact h'
  | cons e evs ih =>
    cases p with
    | ret a => exact h.elim
    | call o k =>
      obtain ⟨r, rfl, hrest⟩ := h
      exact ⟨r, rfl, ih hrest⟩

/-- A run may be begun by what the program is led through. -/
theorem runs_of_leads {p q : Prog Op Res α} {evs evs' : List (Event Op Res)} {a : α}
    (h : Leads p evs q) (hrun : Runs q evs' a) : Runs p (evs ++ evs') a := by
  induction evs generalizing p with
  | nil =>
    obtain rfl : q = p := by simpa [Leads] using h
    exact hrun
  | cons e evs ih =>
    cases p with
    | ret b => exact h.elim
    | call o k =>
      obtain ⟨r, rfl, hrest⟩ := h
      exact ⟨r, _, rfl, ih hrest⟩

@[simp] theorem against_ret (env : (o : Op) → σ → Option (Res o × σ)) (a : α) (st : σ) :
    against env (ret a) st = (ret a, st) := rfl

theorem against_call_some {env : (o : Op) → σ → Option (Res o × σ)} {o : Op}
    {k : Res o → Prog Op Res α} {st st' : σ} {r : Res o} (h : env o st = some (r, st')) :
    against env (call o k) st = against env (k r) st' := by
  simp [against, h]

theorem against_bind {env : (o : Op) → σ → Option (Res o × σ)} {p : Prog Op Res α}
    {f : α → Prog Op Res β} {st st' : σ} {a : α} (h : against env p st = (ret a, st')) :
    against env (p >>= f) st = against env (f a) st' := by
  induction p generalizing st with
  | ret b =>
    simp only [against_ret, Prod.mk.injEq, ret.injEq] at h
    rw [ret_bind, h.1, h.2]
  | call o k ih =>
    simp only [call_bind, against] at h ⊢
    cases he : env o st with
    | none => simp [he] at h
    | some rs => exact ih rs.1 (by simpa [he] using h)

end Prog

end Program
