import Mathlib
import Gateway.Library.Search

/-! The first of several delimiters, and the running minimum of the searches for each. -/
namespace Search

variable {α : Type} [DecidableEq α] {d : α} {ds ds' s run run' : List α} {m : Nat}

/-- The longest beginning of a list that holds no delimiter. -/
structure LongestRun (ds s run : List α) : Prop where
  beginning : run <+: s
  clean : ∀ x ∈ run, x ∉ ds
  longest : ∀ r, r <+: s → (∀ x ∈ r, x ∉ ds) → r <+: run

theorem find?_singleton : find? [d] s = if d ∈ s then some (s.idxOf d) else none := by
  induction s with
  | nil => rfl
  | cons x xs ih =>
    have hhead : [d] <+: x :: xs ↔ d = x := by simp
    rw [find?, ih]
    by_cases hx : d = x
    · subst hx
      simp
    · rw [if_neg (mt hhead.mp hx), List.idxOf_cons_ne xs (Ne.symm hx)]
      by_cases hmem : d ∈ xs <;> simp [hx, hmem]

/-- The first element of a set stands at the first of two positions: that of one delimiter, and
that of the others. -/
theorem findIdx_mem_cons : s.findIdx (· ∈ d :: ds) = min (s.idxOf d) (s.findIdx (· ∈ ds)) := by
  induction s with
  | nil => rfl
  | cons x xs ih =>
    by_cases hd : x = d
    · subst hd
      simp [List.findIdx_cons]
    · by_cases hds : x ∈ ds
      · simp [List.findIdx_cons, hds]
      · rw [List.findIdx_cons, List.findIdx_cons, List.idxOf_cons_ne xs hd, ih]
        simp [hd, hds]

/-- The running minimum of the searches is the first position of any delimiter. -/
theorem foldl_min_idxOf (h : m ≤ s.length) :
    ds.foldl (fun m d => min m (s.idxOf d)) m = min m (s.findIdx (· ∈ ds)) := by
  induction ds generalizing m with
  | nil =>
    have hnone : s.findIdx (· ∈ ([] : List α)) = s.length := List.findIdx_eq_length.mpr (by simp)
    rw [List.foldl_nil, hnone, Nat.min_eq_left h]
  | cons d ds ih =>
    rw [List.foldl_cons, ih ((Nat.min_le_left m _).trans h), findIdx_mem_cons]
    omega

theorem longestRun_takeWhile : LongestRun ds s (s.takeWhile (· ∉ ds)) where
  beginning := List.takeWhile_prefix _
  clean x hx := by simpa using List.mem_takeWhile_imp hx
  longest r hr hclean := by
    obtain ⟨t, rfl⟩ := hr
    have hall : ∀ x ∈ r, decide (x ∉ ds) = true := fun x hx => decide_eq_true (hclean x hx)
    rw [List.takeWhile_append_of_pos hall]
    exact List.prefix_append r _

omit [DecidableEq α] in
theorem LongestRun.unique (h : LongestRun ds s run) (h' : LongestRun ds s run') : run = run' := by
  have hle := (h'.longest run h.beginning h.clean).length_le
  exact (h.longest run' h'.beginning h'.clean).eq_of_length_le hle |>.symm

omit [DecidableEq α] in
/-- Only the set of the delimiters matters, not their order. -/
theorem LongestRun.perm (h : LongestRun ds s run) (hp : ds'.Perm ds) : LongestRun ds' s run where
  beginning := h.beginning
  clean x hx hmem := h.clean x hx (hp.mem_iff.mp hmem)
  longest r hr hclean := h.longest r hr fun x hx hmem => hclean x hx (hp.mem_iff.mpr hmem)

end Search
