import Mathlib
import Gateway.Library.Program

/-! Programs that run as threads, with a log of all their calls in the order they were made. -/
namespace Program

variable {Op : Type} {Res : Op → Type} {α : Type}

/-- The calls of one thread. -/
def traceOf (k : Nat) (log : List (Nat × Event Op Res)) : List (Event Op Res) :=
  (log.filter (·.1 = k)).map Prod.snd

variable {log : List (Nat × Event Op Res)} {starts rests : List (Prog Op Res α)}
  {p q : Prog Op Res α} {e : Event Op Res} {k j : Nat} {o : Op} {next : Res o → Prog Op Res α}
  {r : Res o}

@[simp] theorem traceOf_nil : traceOf k ([] : List (Nat × Event Op Res)) = [] := rfl

theorem traceOf_snoc : traceOf k (log ++ [(j, e)]) =
    if j = k then traceOf k log ++ [e] else traceOf k log := by
  by_cases h : j = k
  · simp [traceOf, List.filter_append, h]
  · simp [traceOf, List.filter_append, h]

theorem mem_traceOf : e ∈ traceOf k log ↔ (k, e) ∈ log := by
  constructor
  · intro h
    obtain ⟨⟨j, e'⟩, hmem, rfl⟩ := List.mem_map.mp h
    obtain ⟨hlog, hj⟩ := List.mem_filter.mp hmem
    obtain rfl : j = k := by simpa using hj
    exact hlog
  · intro h
    exact List.mem_map.mpr ⟨(k, e), List.mem_filter.mpr ⟨h, by simp⟩, rfl⟩

theorem traceOf_append (log log' : List (Nat × Event Op Res)) :
    traceOf k (log ++ log') = traceOf k log ++ traceOf k log' := by
  simp [traceOf, List.filter_append]

theorem traceOf_cons_self : traceOf k ((k, e) :: log) = e :: traceOf k log := by
  simp [traceOf]

/-- Calls that one thread makes in this order stand in the log in this order. -/
theorem sublist_of_traceOf {es : List (Event Op Res)} (h : es.Sublist (traceOf k log)) :
    (es.map (Prod.mk k)).Sublist log := by
  obtain ⟨calls, hcalls, rfl⟩ := List.sublist_map_iff.mp h
  have hself : ∀ c ∈ calls, Prod.mk k c.2 = c := by
    intro c hc
    obtain ⟨-, hk⟩ := List.mem_filter.mp (hcalls.subset hc)
    obtain rfl : c.1 = k := by simpa using hk
    rfl
  rw [List.map_map, List.map_congr_left (f := Prod.mk k ∘ Prod.snd) (g := id) hself, List.map_id]
  exact hcalls.trans List.filter_sublist

/-- The calls of a thread that is alone. -/
theorem traceOf_self {evs : List (Event Op Res)} : traceOf k (evs.map (Prod.mk k)) = evs := by
  induction evs with
  | nil => rfl
  | cons e evs ih => rw [List.map_cons, traceOf_cons_self, ih]

/-- The first call of a kind that a trace begins with does not come before the part that is free
of that kind. -/
theorem split_at_first {α : Type} {P : α → Prop} {pre post free rest : List α} {a : α}
    (h : pre ++ a :: post = free ++ rest) (ha : P a) (hfree : ∀ b ∈ free, ¬ P b) :
    ∃ mid, pre = free ++ mid ∧ rest = mid ++ a :: post := by
  rcases List.append_eq_append_iff.mp h with ⟨mid, rfl, hrest⟩ | ⟨mid, rfl, hrest⟩
  · cases mid with
    | nil => exact ⟨[], by simp, by simpa using hrest.symm⟩
    | cons b mid =>
      obtain ⟨rfl, -⟩ := List.cons.inj hrest
      exact (hfree a (by simp) ha).elim
  · exact ⟨mid, rfl, hrest⟩

/-- Every thread has come from its start to what is left of it by the calls in the log. -/
structure Recorded (starts rests : List (Prog Op Res α)) (log : List (Nat × Event Op Res)) :
    Prop where
  length_eq : starts.length = rests.length
  bounded : ∀ c ∈ log, c.1 < starts.length
  leads : ∀ {k : Nat} {p q : Prog Op Res α}, starts[k]? = some p → rests[k]? = some q →
    p.Leads (traceOf k log) q

namespace Recorded

theorem nil : Recorded ([] : List (Prog Op Res α)) [] [] :=
  ⟨rfl, by simp, fun h => by cases h⟩

/-- A new thread has made no call. -/
theorem spawn (h : Recorded starts rests log) (p : Prog Op Res α) :
    Recorded (starts ++ [p]) (rests ++ [p]) log := by
  refine ⟨by simp [h.length_eq], ?_, ?_⟩
  · intro c hc
    have := h.bounded c hc
    simp only [List.length_append, List.length_singleton]
    omega
  · intro k p' q hp hq
    rcases Nat.lt_or_ge k starts.length with hk | hk
    · rw [List.getElem?_append_left hk] at hp
      rw [List.getElem?_append_left (by rwa [← h.length_eq])] at hq
      exact h.leads hp hq
    · rw [List.getElem?_append_right hk] at hp
      rw [List.getElem?_append_right (by rwa [← h.length_eq]), ← h.length_eq] at hq
      obtain rfl : p' = q := by
        rw [hp] at hq
        exact Option.some.inj hq
      have hnone : traceOf k log = [] := by
        rw [List.eq_nil_iff_forall_not_mem]
        intro e he
        have := h.bounded _ (mem_traceOf.mp he)
        simp only at this
        omega
      rw [hnone, Prog.leads_nil]

/-- One call of one thread. -/
theorem call (h : Recorded starts rests log) (hk : rests[k]? = some (.call o next)) (r : Res o) :
    Recorded starts (rests.set k (next r)) (log ++ [(k, ⟨o, r⟩)]) := by
  have hlt : k < starts.length := by
    rw [h.length_eq]
    exact (List.getElem?_eq_some_iff.mp hk).1
  refine ⟨by simp [h.length_eq], ?_, ?_⟩
  · intro c hc
    rcases List.mem_append.mp hc with hc | hc
    · exact h.bounded c hc
    · obtain rfl := List.mem_singleton.mp hc
      exact hlt
  · intro j p q hp hq
    rw [traceOf_snoc]
    by_cases hjk : k = j
    · subst hjk
      obtain rfl : next r = q := by
        rw [List.getElem?_set_self (by rwa [← h.length_eq])] at hq
        exact Option.some.inj hq
      rw [if_pos rfl]
      exact Prog.leads_append (h.leads hp hk) ⟨r, rfl, Prog.leads_nil.mpr rfl⟩
    · rw [List.getElem?_set_ne hjk] at hq
      rw [if_neg hjk]
      exact h.leads hp hq

theorem exists_rest (h : Recorded starts rests log) (hp : starts[k]? = some p) :
    ∃ q, rests[k]? = some q ∧ p.Leads (traceOf k log) q := by
  have hlt : k < rests.length := by
    rw [← h.length_eq]
    exact (List.getElem?_eq_some_iff.mp hp).1
  exact ⟨rests[k], List.getElem?_eq_getElem hlt, h.leads hp (List.getElem?_eq_getElem hlt)⟩

/-- What a thread has called so far is how a complete run of it begins. -/
theorem begins [∀ o, Nonempty (Res o)] (h : Recorded starts rests log) (hp : starts[k]? = some p) :
    ∃ more a, p.Runs (traceOf k log ++ more) a := by
  obtain ⟨q, -, hleads⟩ := h.exists_rest hp
  obtain ⟨more, a, hrun⟩ := Prog.exists_runs q
  exact ⟨more, a, Prog.runs_of_leads hleads hrun⟩

theorem exists_start (h : Recorded starts rests log) (hmem : (k, e) ∈ log) :
    ∃ p, starts[k]? = some p := by
  have hlt := h.bounded _ hmem
  exact ⟨starts[k], List.getElem?_eq_getElem hlt⟩

end Recorded

end Program
