import Mathlib
import Gateway.Library.Program

/-! Programs that write notes between their calls. -/
namespace Program

variable {Op N : Type} {Res : Op → Type} {α β : Type}

/-- A note is answered by nothing. -/
@[reducible] def NotedRes (N : Type) (Res : Op → Type) : Op ⊕ N → Type
  | .inl o => Res o
  | .inr _ => Unit

abbrev Noted (Op N : Type) (Res : Op → Type) (α : Type) := Prog (Op ⊕ N) (NotedRes N Res) α

abbrev NotedEvent (Op N : Type) (Res : Op → Type) := Event (Op ⊕ N) (NotedRes N Res)

namespace Noted

/-- Writes one note. -/
def note (n : N) : Noted Op N Res Unit := .call (.inr n) .ret

/-- A program that writes no note. -/
def silent : Prog Op Res α → Noted Op N Res α
  | .ret a => .ret a
  | .call o k => .call (.inl o) fun r => silent (k r)

/-- The program without its notes. -/
def erase : Noted Op N Res α → Prog Op Res α
  | .ret a => .ret a
  | .call (.inl o) k => .call o fun r => erase (k r)
  | .call (.inr _) k => erase (k ())

def callsIn : List (NotedEvent Op N Res) → List (Event Op Res)
  | [] => []
  | ⟨.inl o, r⟩ :: evs => ⟨o, r⟩ :: callsIn evs
  | ⟨.inr _, _⟩ :: evs => callsIn evs

def notesIn : List (NotedEvent Op N Res) → List N
  | [] => []
  | ⟨.inl _, _⟩ :: evs => notesIn evs
  | ⟨.inr n, _⟩ :: evs => n :: notesIn evs

/-- The calls of a program that writes no note. -/
def quiet (evs : List (Event Op Res)) : List (NotedEvent Op N Res) :=
  evs.map fun e => ⟨.inl e.op, e.res⟩

@[simp] theorem callsIn_append (evs evs' : List (NotedEvent Op N Res)) :
    callsIn (evs ++ evs') = callsIn evs ++ callsIn evs' := by
  induction evs with
  | nil => rfl
  | cons e evs ih =>
    obtain ⟨o, r⟩ := e
    cases o with
    | inl o => exact congrArg (_ :: ·) ih
    | inr n => exact ih

@[simp] theorem notesIn_append (evs evs' : List (NotedEvent Op N Res)) :
    notesIn (evs ++ evs') = notesIn evs ++ notesIn evs' := by
  induction evs with
  | nil => rfl
  | cons e evs ih =>
    obtain ⟨o, r⟩ := e
    cases o with
    | inl o => exact ih
    | inr n => exact congrArg (_ :: ·) ih

@[simp] theorem callsIn_quiet (evs : List (Event Op Res)) :
    callsIn (quiet evs : List (NotedEvent Op N Res)) = evs := by
  induction evs with
  | nil => rfl
  | cons e evs ih => exact congrArg (e :: ·) ih

@[simp] theorem notesIn_quiet (evs : List (Event Op Res)) :
    notesIn (quiet evs : List (NotedEvent Op N Res)) = [] := by
  induction evs with
  | nil => rfl
  | cons e evs ih => exact ih

@[simp] theorem erase_ret (a : α) : erase (.ret a : Noted Op N Res α) = .ret a := rfl

@[simp] theorem erase_note (n : N) : erase (note n : Noted Op N Res Unit) = .ret () := rfl

@[simp] theorem erase_silent (p : Prog Op Res α) : erase (silent p : Noted Op N Res α) = p := by
  induction p with
  | ret a => rfl
  | call o k ih =>
    simp only [silent, erase]
    congr 1
    funext r
    exact ih r

@[simp] theorem erase_bind (p : Noted Op N Res α) (f : α → Noted Op N Res β) :
    erase (p >>= f) = erase p >>= fun a => erase (f a) := by
  induction p with
  | ret a => rfl
  | call o k ih =>
    cases o with
    | inl o =>
      simp only [Prog.call_bind, erase]
      congr 1
      funext r
      exact ih r
    | inr n => exact ih ()

instance [h : ∀ o, Nonempty (Res o)] (o : Op ⊕ N) : Nonempty (NotedRes N Res o) := by
  cases o with
  | inl o => exact h o
  | inr n => exact ⟨()⟩

theorem runs_silent {p : Prog Op Res α} {evs : List (Event Op Res)} {a : α} (h : p.Runs evs a) :
    (silent p : Noted Op N Res α).Runs (quiet evs) a := by
  induction p generalizing evs with
  | ret b =>
    obtain ⟨rfl, rfl⟩ := h
    exact ⟨rfl, rfl⟩
  | call o k ih =>
    obtain ⟨r, rest, rfl, hrest⟩ := h
    exact ⟨r, quiet rest, rfl, ih r hrest⟩

/-- Without its notes a program takes the same way. -/
theorem leads_erase {p q : Noted Op N Res α} {evs : List (NotedEvent Op N Res)}
    (h : p.Leads evs q) : (erase p).Leads (callsIn evs) (erase q) := by
  induction evs generalizing p with
  | nil =>
    obtain rfl := Prog.leads_nil.mp h
    exact Prog.leads_nil.mpr rfl
  | cons e evs ih =>
    cases p with
    | ret a => exact h.elim
    | call o k =>
      obtain ⟨r, rfl, hrest⟩ := h
      have htail := ih hrest
      cases o with
      | inl o => exact ⟨r, rfl, htail⟩
      | inr n => exact htail

/-- As long as the answers satisfy `Q`, every note satisfies `P`. -/
def Writes (Q : Event Op Res → Prop) (P : N → Prop) : Noted Op N Res α → Prop
  | .ret _ => True
  | .call (.inl o) k => ∀ r, Q ⟨o, r⟩ → Writes Q P (k r)
  | .call (.inr n) k => P n ∧ Writes Q P (k ())

variable {Q : Event Op Res → Prop} {P : N → Prop}

theorem writes_note {n : N} (h : P n) : Writes Q P (note n : Noted Op N Res Unit) := ⟨h, trivial⟩

theorem writes_silent (p : Prog Op Res α) : Writes Q P (silent p : Noted Op N Res α) := by
  induction p with
  | ret a => trivial
  | call o k ih => exact fun r _ => ih r

/-- A program that does not need to know what was returned before it. -/
theorem writes_seq {p : Noted Op N Res α} {f : α → Noted Op N Res β} (hp : Writes Q P p)
    (hf : ∀ a, Writes Q P (f a)) : Writes Q P (p >>= f) := by
  induction p with
  | ret a => exact hf a
  | call o k ih =>
    cases o with
    | inl o => exact fun r hr => ih r (hp r hr)
    | inr n => exact ⟨hp.1, ih () hp.2⟩

theorem writes_bind {S : α → Prop} {p : Noted Op N Res α} {f : α → Noted Op N Res β}
    (hreturns : (erase p).Returns S) (hp : Writes Q P p) (hf : ∀ a, S a → Writes Q P (f a)) :
    Writes Q P (p >>= f) := by
  induction p with
  | ret a => exact hf a hreturns
  | call o k ih =>
    cases o with
    | inl o => exact fun r hr => ih r (hreturns r) (hp r hr)
    | inr n => exact ⟨hp.1, ih () hreturns hp.2⟩

theorem writes_silent_bind {S : α → Prop} {p : Prog Op Res α} {f : α → Noted Op N Res β}
    (hreturns : p.Returns S) (hf : ∀ a, S a → Writes Q P (f a)) :
    Writes Q P (silent p >>= f) := by
  apply writes_bind _ (writes_silent p) hf
  rwa [erase_silent]

/-- What follows a call goes on from its answer. -/
theorem writes_perform_bind {o : Op} {f : Res o → Noted Op N Res β}
    (h : ∀ r, Q ⟨o, r⟩ → Writes Q P (f r)) : Writes Q P (silent (Prog.perform o) >>= f) := h

/-- The notes so far of a run whose answers satisfy the assumption. -/
theorem notes_of_leads {p q : Noted Op N Res α} {evs : List (NotedEvent Op N Res)}
    (h : Writes Q P p) (hleads : p.Leads evs q) (hanswers : ∀ e ∈ callsIn evs, Q e) :
    ∀ n ∈ notesIn evs, P n := by
  induction evs generalizing p with
  | nil => simp [notesIn]
  | cons e evs ih =>
    cases p with
    | ret a => exact hleads.elim
    | call o k =>
      obtain ⟨r, rfl, hrest⟩ := hleads
      cases o with
      | inl o =>
        obtain ⟨hr, hanswers⟩ := List.forall_mem_cons.mp hanswers
        exact ih (h r hr) hrest hanswers
      | inr n => exact List.forall_mem_cons.mpr ⟨h.1, ih h.2 hrest hanswers⟩

end Noted

/-- The programs take the same steps as far as `view` tells, given answers that look the same,
and what they return is related by `S`. -/
def Alike {ε : Type} (view : Event Op Res → ε) (S : α → β → Prop) :
    Prog Op Res α → Prog Op Res β → Prop
  | .ret a, q => ∃ b, q = .ret b ∧ S a b
  | .call o k, q => ∃ o' k', q = .call o' k' ∧
      ∀ r, ∃ r', view ⟨o', r'⟩ = view ⟨o, r⟩ ∧ Alike view S (k r) (k' r')

namespace Alike

variable {ε γ δ : Type} {view : Event Op Res → ε} {S : α → β → Prop} {T : γ → δ → Prop}

theorem refl (p : Prog Op Res α) : Alike view Eq p p := by
  induction p with
  | ret a => exact ⟨a, rfl, rfl⟩
  | call o k ih => exact ⟨o, k, rfl, fun r => ⟨r, rfl, ih r⟩⟩

theorem of_eq {p q : Prog Op Res α} (h : p = q) : Alike view Eq p q := h ▸ refl p

theorem bind {p : Prog Op Res α} {q : Prog Op Res β} {f : α → Prog Op Res γ}
    {g : β → Prog Op Res δ} (h : Alike view S p q) (hf : ∀ a b, S a b → Alike view T (f a) (g b)) :
    Alike view T (p >>= f) (q >>= g) := by
  induction p generalizing q with
  | ret a =>
    obtain ⟨b, rfl, hab⟩ := h
    exact hf a b hab
  | call o k ih =>
    obtain ⟨o', k', rfl, hk⟩ := h
    refine ⟨o', _, rfl, fun r => ?_⟩
    obtain ⟨r', hview, hr⟩ := hk r
    exact ⟨r', hview, ih r hr⟩

/-- Every run of one program looks like a run of the other. -/
theorem runs {p : Prog Op Res α} {q : Prog Op Res β} {evs : List (Event Op Res)} {a : α}
    (h : Alike view S p q) (hrun : p.Runs evs a) :
    ∃ evs' b, q.Runs evs' b ∧ S a b ∧ evs'.map view = evs.map view := by
  induction p generalizing q evs with
  | ret a' =>
    obtain ⟨b, rfl, hab⟩ := h
    obtain ⟨rfl, rfl⟩ := hrun
    exact ⟨[], b, ⟨rfl, rfl⟩, hab, rfl⟩
  | call o k ih =>
    obtain ⟨o', k', rfl, hk⟩ := h
    obtain ⟨r, rest, rfl, hrest⟩ := hrun
    obtain ⟨r', hview, hr⟩ := hk r
    obtain ⟨evs', b, hrun', hab, hmap⟩ := ih r hr hrest
    exact ⟨⟨o', r'⟩ :: evs', b, ⟨r', evs', rfl, hrun'⟩, hab, by simp [hview, hmap]⟩

end Alike

end Program
