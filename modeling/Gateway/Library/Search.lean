import Mathlib

/-! First occurrences of a pattern in a list, and the cuts and splits made at them. -/
namespace Search

variable {α : Type} [DecidableEq α] {x : α} {pat ps s a b : List α} {i j : Nat}

/-- The least position at which the pattern starts. -/
def find? (pat : List α) : List α → Option Nat
  | [] => if pat = [] then some 0 else none
  | x :: xs => if pat <+: x :: xs then some 0 else (find? pat xs).map (· + 1)

/-- The parts of a list before and after the first occurrence of the pattern. -/
def cut (pat s : List α) : Option (List α × List α) :=
  (find? pat s).map fun i => (s.take i, s.drop (i + pat.length))

theorem find?_eq_some_iff : find? pat s = some i ↔
    i ≤ s.length ∧ pat <+: s.drop i ∧ ∀ j < i, ¬ pat <+: s.drop j := by
  induction s generalizing i with
  | nil =>
    simp only [find?, List.drop_nil, List.prefix_nil, List.length_nil]
    split
    · rename_i hp
      simp only [Option.some.injEq, Nat.le_zero_eq]
      constructor
      · rintro rfl
        exact ⟨rfl, hp, fun j hj => (Nat.not_lt_zero j hj).elim⟩
      · rintro ⟨rfl, _⟩
        rfl
    · simp_all
  | cons x xs ih =>
    simp only [find?]
    split
    · rename_i hp
      constructor
      · intro h
        obtain rfl : 0 = i := by simpa using h
        exact ⟨Nat.zero_le _, hp, by omega⟩
      · rintro ⟨_, _, hmin⟩
        cases i with
        | zero => rfl
        | succ i => exact (hmin 0 (Nat.succ_pos i) hp).elim
    · rename_i hp
      cases i with
      | zero => simp [hp]
      | succ i =>
        simp only [Option.map_eq_some_iff, Nat.add_right_cancel_iff, exists_eq_right, ih,
          List.length_cons, Nat.add_le_add_iff_right, List.drop_succ_cons]
        refine and_congr_right fun _ => and_congr_right fun _ => ?_
        constructor
        · intro h j hj
          cases j with
          | zero => exact hp
          | succ j => exact h j (by omega)
        · intro h j hj
          exact h (j + 1) (by omega)

theorem find?_eq_none_iff : find? pat s = none ↔ ¬ pat <:+: s := by
  induction s with
  | nil => simp [find?]
  | cons x xs ih =>
    simp only [find?, List.infix_cons_iff]
    split
    · simp_all
    · simp_all

theorem find?_some_le (h : find? pat s = some i) : i + pat.length ≤ s.length := by
  obtain ⟨hi, hp, _⟩ := find?_eq_some_iff.mp h
  have hl := hp.length_le
  rw [List.length_drop] at hl
  omega

/-- An occurrence splits the list around itself. -/
theorem find?_some_eq (h : find? pat s = some i) :
    s.take i ++ pat ++ s.drop (i + pat.length) = s := by
  obtain ⟨_, ⟨t, ht⟩, _⟩ := find?_eq_some_iff.mp h
  have hd : s.drop (i + pat.length) = t := by
    rw [← List.drop_drop, ← ht, List.drop_left]
  rw [hd, List.append_assoc, ht, List.take_append_drop]

/-- The search skips a block in which the pattern does not start. -/
theorem find?_skip (h : ∀ j < a.length, ¬ pat <+: (a ++ b).drop j) :
    find? pat (a ++ b) = (find? pat b).map (a.length + ·) := by
  induction a with
  | nil => simp
  | cons y ys ih =>
    have hrest := ih fun j hj => by simpa using h (j + 1) (by simpa using hj)
    have hp : ¬ pat <+: y :: (ys ++ b) := by simpa using h 0 (by simp)
    simp only [List.cons_append, find?, hp, if_false, hrest, Option.map_map]
    congr 1
    funext n
    simp only [Function.comp_apply, List.length_cons]
    omega

/-- The search skips a block that does not hold the first element of the pattern. -/
theorem find?_append_of_not_mem (h : x ∉ a) :
    find? (x :: ps) (a ++ b) = (find? (x :: ps) b).map (a.length + ·) := by
  apply find?_skip
  intro j hj hp
  rw [List.drop_append_of_le_length (by omega), List.drop_eq_getElem_cons hj] at hp
  exact h ((List.cons_prefix_cons.mp hp).1 ▸ List.getElem_mem hj)

theorem find?_of_prefix (h : pat <+: s) : find? pat s = some 0 :=
  find?_eq_some_iff.mpr ⟨Nat.zero_le _, h, by omega⟩

theorem find?_block (h : x ∉ a) : find? (x :: ps) (a ++ (x :: ps) ++ b) = some a.length := by
  rw [List.append_assoc, find?_append_of_not_mem h, find?_of_prefix (List.prefix_append _ _)]
  rfl

theorem find?_none_of_not_mem (h : x ∉ s) : find? (x :: ps) s = none :=
  find?_eq_none_iff.mpr fun hi => h (hi.subset List.mem_cons_self)

theorem cut_block (h : x ∉ a) : cut (x :: ps) (a ++ (x :: ps) ++ b) = some (a, b) := by
  rw [cut, find?_block h]
  simp

/-- A longer list has the same first occurrence. -/
theorem find?_append_of_some (h : find? pat s = some i) : find? pat (s ++ b) = some i := by
  have hl := find?_some_le h
  obtain ⟨hi, hp, hmin⟩ := find?_eq_some_iff.mp h
  refine find?_eq_some_iff.mpr ⟨by simp; omega, ?_, ?_⟩
  · rw [List.drop_append_of_le_length hi]
    exact hp.trans (List.prefix_append _ _)
  · intro j hj hpre
    rw [List.drop_append_of_le_length (by omega)] at hpre
    refine hmin j hj (List.prefix_of_prefix_length_le hpre (List.prefix_append _ b) ?_)
    rw [List.length_drop]
    omega

/-- An occurrence inside the first part is found there. -/
theorem find?_of_append (h : find? pat (a ++ b) = some i) (hl : i + pat.length ≤ a.length) :
    find? pat a = some i := by
  obtain ⟨_, hp, hmin⟩ := find?_eq_some_iff.mp h
  have hi : i ≤ a.length := by omega
  refine find?_eq_some_iff.mpr ⟨hi, ?_, ?_⟩
  · rw [List.drop_append_of_le_length hi] at hp
    apply List.prefix_of_prefix_length_le hp (List.prefix_append _ b)
    rw [List.length_drop]
    omega
  · intro j hj hpre
    apply hmin j hj
    rw [List.drop_append_of_le_length (by omega)]
    exact hpre.trans (List.prefix_append _ b)

/-- The part before the first occurrence of a non-empty pattern does not hold the pattern. -/
theorem not_infix_of_find? (hne : pat ≠ []) (h : find? pat s = some i) : ¬ pat <:+: s.take i := by
  intro hin
  cases hf : find? pat (s.take i) with
  | none => exact find?_eq_none_iff.mp hf hin
  | some j =>
    have hfirst := find?_append_of_some (b := s.drop i) hf
    rw [List.take_append_drop, h] at hfirst
    cases hfirst
    have hle := find?_some_le hf
    have hpos := List.length_pos_iff.mpr hne
    rw [List.length_take] at hle
    omega

/-- A block without the pattern is skipped, when the pattern cannot overlap itself. -/
theorem find?_block_of_not_infix (hx : x ∉ ps) (h : ¬ (x :: ps) <:+: a) :
    find? (x :: ps) (a ++ (x :: ps) ++ b) = some a.length := by
  refine find?_eq_some_iff.mpr ⟨by simp, ?_, ?_⟩
  · rw [List.append_assoc, List.drop_left]
    exact List.prefix_append _ _
  · intro j hj hp
    rw [List.append_assoc, List.drop_append_of_le_length (by omega)] at hp
    rcases List.prefix_or_prefix_of_prefix hp (List.prefix_append _ _) with hin | ⟨q, hq⟩
    · exact h (hin.isInfix.trans (List.drop_suffix j a).isInfix)
    · -- the rest of the pattern would begin a second occurrence
      have hrest : q <+: x :: ps ++ b := by
        rw [← List.prefix_append_right_inj (a.drop j), hq]
        exact hp
      obtain ⟨y, ys, hdrop⟩ : ∃ y ys, a.drop j = y :: ys := by
        cases hd : a.drop j with
        | nil => simp at hd; omega
        | cons y ys => exact ⟨y, ys, rfl⟩
      rw [hdrop, List.cons_append] at hq
      obtain ⟨-, hps⟩ := List.cons.inj hq
      cases q with
      | nil =>
        apply h
        rw [List.append_nil] at hps
        have hall : a.drop j = x :: ps := by rw [hdrop, ← hps, (List.cons.inj hq).1]
        exact hall ▸ (List.drop_suffix j a).isInfix
      | cons z q =>
        have hz : z = x := (List.cons_prefix_cons.mp hrest).1
        apply hx
        rw [← hps, ← hz]
        simp

/-- Behind a block without the separator, the pattern is found at the separator that ends the
block or is searched behind it. -/
theorem find?_line (hx : x ∉ ps) (h : ¬ (x :: ps) <:+: a) :
    find? (x :: ps ++ pat) (a ++ (x :: ps) ++ b) =
      if pat <+: b then some a.length
      else (find? (x :: ps ++ pat) b).map ((a ++ (x :: ps)).length + ·) := by
  have hblock : find? (x :: ps) (a ++ (x :: ps) ++ b) = some a.length :=
    find?_block_of_not_infix hx h
  have hfirst := (find?_eq_some_iff.mp hblock).2.2
  have hearly : ∀ j < a.length, ¬ x :: ps ++ pat <+: (a ++ (x :: ps) ++ b).drop j := by
    intro j hj hp
    exact hfirst j hj ((List.prefix_append _ pat).trans hp)
  have hdrop : (a ++ (x :: ps) ++ b).drop a.length = x :: ps ++ b := by
    rw [List.append_assoc, List.drop_left]
  by_cases hpat : pat <+: b
  · rw [if_pos hpat]
    refine find?_eq_some_iff.mpr ⟨by simp, ?_, hearly⟩
    rw [hdrop, List.prefix_append_right_inj]
    exact hpat
  · rw [if_neg hpat]
    apply find?_skip
    intro j hj hp
    obtain hlt | rfl | hgt := Nat.lt_trichotomy j a.length
    · exact hearly j hlt hp
    · rw [hdrop, List.prefix_append_right_inj] at hp
      exact hpat hp
    · -- inside the separator its first element does not stand again
      obtain ⟨k, rfl⟩ : ∃ k, j = a.length + (k + 1) := ⟨j - a.length - 1, by omega⟩
      have hk : k < ps.length := by
        simp only [List.length_append, List.length_cons] at hj
        omega
      rw [← List.drop_drop, hdrop, List.cons_append, List.cons_append, List.drop_succ_cons,
        List.drop_append_of_le_length (by omega), List.drop_eq_getElem_cons hk] at hp
      exact hx ((List.cons_prefix_cons.mp hp).1 ▸ List.getElem_mem hk)

omit [DecidableEq α] in
theorem not_infix_of_not_mem (h : x ∉ a) : ¬ (x :: ps) <:+: a :=
  fun hin => h (hin.subset List.mem_cons_self)

/-- Lines joined with a separator hold no doubled separator before the one that ends them. -/
theorem find?_double {ls : List (List α)} (hx : x ∉ ps) (hne : ls ≠ [])
    (hl : ∀ l ∈ ls, l ≠ [] ∧ ¬ (x :: ps) <:+: l) :
    find? (x :: ps ++ x :: ps) ((x :: ps).intercalate ls ++ (x :: ps ++ x :: ps) ++ b) =
      some ((x :: ps).intercalate ls).length := by
  induction ls with
  | nil => exact (hne rfl).elim
  | cons l ls ih =>
    rw [List.forall_mem_cons] at hl
    obtain ⟨⟨-, hline⟩, hls⟩ := hl
    cases ls with
    | nil =>
      have hend : x :: ps <+: x :: ps ++ b := List.prefix_append _ _
      rw [List.intercalate_singleton, List.append_assoc, List.append_assoc, ← List.append_assoc,
        find?_line hx hline, if_pos hend]
    | cons m ms =>
      have hrest := ih (List.cons_ne_nil m ms) hls
      obtain ⟨hm, hmline⟩ := hls m List.mem_cons_self
      obtain ⟨t, ht⟩ : ∃ t, (x :: ps).intercalate (m :: ms) ++ (x :: ps ++ x :: ps) ++ b =
          m ++ (x :: ps) ++ t := by
        cases ms with
        | nil => exact ⟨x :: ps ++ b, by simp⟩
        | cons k ks =>
          refine ⟨(x :: ps).intercalate (k :: ks) ++ (x :: ps ++ x :: ps) ++ b, ?_⟩
          rw [List.intercalate_cons_cons]
          simp only [List.append_assoc]
      -- the next line does not begin with the separator
      have hhead : ¬ x :: ps <+: (x :: ps).intercalate (m :: ms) ++ (x :: ps ++ x :: ps) ++ b := by
        intro hp
        have hfound := find?_of_prefix hp
        rw [ht, find?_block_of_not_infix hx hmline] at hfound
        exact hm (List.eq_nil_of_length_eq_zero (Option.some.inj hfound))
      have hassoc : l ++ x :: ps ++ (x :: ps).intercalate (m :: ms) ++ (x :: ps ++ x :: ps) ++ b =
          l ++ (x :: ps) ++ ((x :: ps).intercalate (m :: ms) ++ (x :: ps ++ x :: ps) ++ b) := by
        simp only [List.append_assoc]
      rw [List.intercalate_cons_cons, hassoc, find?_line hx hline, if_neg hhead, hrest,
        Option.map_some, ← List.length_append]

theorem cut_double {ls : List (List α)} (hx : x ∉ ps) (hne : ls ≠ [])
    (hl : ∀ l ∈ ls, l ≠ [] ∧ ¬ (x :: ps) <:+: l) :
    cut (x :: ps ++ x :: ps) ((x :: ps).intercalate ls ++ (x :: ps ++ x :: ps) ++ b) =
      some ((x :: ps).intercalate ls, b) := by
  have hfind := find?_double (b := b) hx hne hl
  generalize (x :: ps).intercalate ls = joined, x :: ps ++ x :: ps = sep at hfind ⊢
  rw [cut, hfind, Option.map_some, ← List.length_append, List.drop_left, List.append_assoc,
    List.take_left]

/-- The first occurrence of a pattern that cannot overlap itself, as a decomposition. -/
theorem find?_eq_some_split (hx : x ∉ ps) : find? (x :: ps) s = some i ↔
    ∃ a b, s = a ++ (x :: ps) ++ b ∧ a.length = i ∧ ¬ (x :: ps) <:+: a := by
  constructor
  · intro h
    have hle := find?_some_le h
    refine ⟨s.take i, s.drop (i + (x :: ps).length), (find?_some_eq h).symm, ?_, ?_⟩
    · rw [List.length_take]
      omega
    · exact not_infix_of_find? (List.cons_ne_nil x ps) h
  · rintro ⟨a, b, rfl, rfl, h⟩
    exact find?_block_of_not_infix hx h

omit [DecidableEq α] in
theorem singleton_infix_iff : [x] <:+: s ↔ x ∈ s := by
  constructor
  · intro h
    exact h.subset (List.mem_singleton.mpr rfl)
  · intro h
    obtain ⟨u, v, rfl⟩ := List.append_of_mem h
    exact ⟨u, v, by simp⟩

/-- The parts of a list before and from the first occurrence of one element. -/
theorem parts_of_find?_singleton (h : find? [x] s = some i) :
    s.take i = s.takeWhile (· ≠ x) ∧ s.drop i = s.dropWhile (· ≠ x) := by
  have hplain : x ∉ ([] : List α) := List.not_mem_nil
  obtain ⟨a, b, rfl, rfl, ha⟩ := (find?_eq_some_split hplain).mp h
  rw [singleton_infix_iff] at ha
  have hne : ∀ y ∈ a, decide (y ≠ x) = true := by
    intro y hy
    exact decide_eq_true fun heq => ha (heq ▸ hy)
  rw [List.append_assoc, List.take_left, List.drop_left, List.takeWhile_append_of_pos hne,
    List.dropWhile_append_of_pos hne]
  simp

theorem parts_of_find?_none (h : find? [x] s = none) :
    s.takeWhile (· ≠ x) = s ∧ s.dropWhile (· ≠ x) = [] := by
  rw [find?_eq_none_iff, singleton_infix_iff] at h
  have hne : ∀ y ∈ s, decide (y ≠ x) = true := by
    intro y hy
    exact decide_eq_true fun heq => h (heq ▸ hy)
  exact ⟨List.takeWhile_eq_self_iff.mpr hne, List.dropWhile_eq_nil_iff.mpr hne⟩

/-- The pieces of a list between the successive occurrences of a non-empty pattern. -/
def splitOn (pat s : List α) : List (List α) :=
  match _h : find? pat s with
  | none => [s]
  | some i =>
    if _hp : 0 < pat.length then s.take i :: splitOn pat (s.drop (i + pat.length)) else [s]
termination_by s.length
decreasing_by
  have := find?_some_le _h
  rw [List.length_drop]
  omega

theorem splitOn_ne_nil (pat s : List α) : splitOn pat s ≠ [] := by
  rw [splitOn]
  split
  · simp
  · split <;> simp

theorem splitOn_of_not_infix (h : ¬ pat <:+: s) : splitOn pat s = [s] := by
  rw [splitOn]
  split
  · rfl
  · rename_i i hi
    rw [find?_eq_none_iff.mpr h] at hi
    cases hi

theorem splitOn_block (hx : x ∉ ps) (h : ¬ (x :: ps) <:+: a) :
    splitOn (x :: ps) (a ++ (x :: ps) ++ b) = a :: splitOn (x :: ps) b := by
  rw [splitOn]
  split
  · rename_i hn
    rw [ find?_block_of_not_infix hx h] at hn
    cases hn
  · rename_i i hi
    rw [ find?_block_of_not_infix hx h] at hi
    cases hi
    simp

/-- Splitting recovers the blocks that were joined with the pattern. -/
theorem splitOn_intercalate {ls : List (List α)} (hx : x ∉ ps) (hne : ls ≠ [])
    (h : ∀ l ∈ ls, ¬ (x :: ps) <:+: l) : splitOn (x :: ps) ((x :: ps).intercalate ls) = ls := by
  induction ls with
  | nil => exact (hne rfl).elim
  | cons l ls ih =>
    rw [List.forall_mem_cons] at h
    cases ls with
    | nil => simpa using splitOn_of_not_infix h.1
    | cons m ms =>
      rw [List.intercalate_cons_cons, splitOn_block hx h.1, ih (List.cons_ne_nil m ms) h.2]

/-- Joining the pieces gives the list back, and no piece holds the pattern. -/
theorem intercalate_splitOn (x : α) (ps s : List α) :
    (x :: ps).intercalate (splitOn (x :: ps) s) = s ∧
      ∀ l ∈ splitOn (x :: ps) s, ¬ (x :: ps) <:+: l := by
  induction hn : s.length using Nat.strong_induction_on generalizing s with
  | _ n ih =>
    cases hfind : find? (x :: ps) s with
    | none =>
      have hno := find?_eq_none_iff.mp hfind
      rw [ splitOn_of_not_infix hno]
      exact ⟨by simp, fun l hl => by rwa [List.mem_singleton.mp hl]⟩
    | some i =>
      have hle := find?_some_le hfind
      have hpos : 0 < (x :: ps).length := Nat.succ_pos _
      have hsplit : splitOn (x :: ps) s =
          s.take i :: splitOn (x :: ps) (s.drop (i + (x :: ps).length)) := by
        rw [splitOn]
        split
        · rename_i hnone
          rw [hfind] at hnone
          cases hnone
        · rename_i j hj
          rw [hfind] at hj
          cases hj
          rw [dif_pos hpos]
      obtain ⟨hjoin, hlines⟩ := ih (s.drop (i + (x :: ps).length)).length
        (by rw [List.length_drop]; omega) _ rfl
      obtain ⟨l, ls, hls⟩ := List.exists_cons_of_ne_nil
        (splitOn_ne_nil (x :: ps) (s.drop (i + (x :: ps).length)))
      rw [hls] at hjoin hlines
      rw [hsplit, hls, List.intercalate_cons_cons, hjoin, find?_some_eq hfind, List.forall_mem_cons]
      exact ⟨rfl, not_infix_of_find? (List.cons_ne_nil x ps) hfind, hlines⟩

/-- A cut at one element is made at its first occurrence. -/
theorem cut_singleton : cut [x] s = some (a, b) ↔ s = a ++ x :: b ∧ x ∉ a := by
  constructor
  · intro h
    obtain ⟨i, hi, hparts⟩ := Option.map_eq_some_iff.mp h
    obtain ⟨a', b', rfl, rfl, hfree⟩ := (find?_eq_some_split (by simp)).mp hi
    simp only [List.append_assoc, List.take_left, List.drop_append, Prod.mk.injEq] at hparts
    obtain ⟨rfl, rfl⟩ := hparts
    refine ⟨by simp, fun hx => hfree ?_⟩
    obtain ⟨p, q, rfl⟩ := List.append_of_mem hx
    exact ⟨p, q, by simp⟩
  · rintro ⟨rfl, hx⟩
    have hcut : cut [x] (a ++ [x] ++ b) = some (a, b) := cut_block hx
    simpa using hcut

end Search
