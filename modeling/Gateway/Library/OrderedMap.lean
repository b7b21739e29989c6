import Mathlib

/-! A map kept as a list of entries in the order of their keys. -/
namespace OrderedMap

variable {κ β : Type} {cmp : κ → κ → Ordering} {key : κ} {value : β} {entries : List (κ × β)}
  {e : κ × β}

/-- Gives a key its value, in the place of the one it had. -/
def set (cmp : κ → κ → Ordering) (key : κ) (value : β) : List (κ × β) → List (κ × β)
  | [] => [(key, value)]
  | (k, v) :: entries =>
    match cmp key k with
    | .lt => (key, value) :: (k, v) :: entries
    | .eq => (key, value) :: entries
    | .gt => (k, v) :: set cmp key value entries

def Sorted (cmp : κ → κ → Ordering) (entries : List (κ × β)) : Prop :=
  entries.Pairwise fun a b => cmp a.1 b.1 = .lt

theorem sorted_nil : Sorted cmp ([] : List (κ × β)) := .nil

theorem sorted_cons : Sorted cmp (e :: entries) ↔
    (∀ a ∈ entries, cmp e.1 a.1 = .lt) ∧ Sorted cmp entries := List.pairwise_cons

theorem sorted_append {more : List (κ × β)} : Sorted cmp (entries ++ more) ↔
    Sorted cmp entries ∧ Sorted cmp more ∧ ∀ a ∈ entries, ∀ b ∈ more, cmp a.1 b.1 = .lt :=
  List.pairwise_append

theorem mem_set (h : e ∈ set cmp key value entries) : e = (key, value) ∨ e ∈ entries := by
  induction entries with
  | nil => simpa [set] using h
  | cons hd tl ih =>
    obtain ⟨k, w⟩ := hd
    rw [set] at h
    split at h <;> simp only [List.mem_cons] at h ⊢
    · tauto
    · tauto
    · rcases h with rfl | h
      · exact .inr (.inl rfl)
      · rcases ih h with h | h
        · exact .inl h
        · exact .inr (.inr h)

theorem set_sorted [Std.TransCmp cmp] [Std.LawfulEqCmp cmp] (h : Sorted cmp entries) :
    Sorted cmp (set cmp key value entries) := by
  induction entries with
  | nil => simp [set, Sorted]
  | cons hd tl ih =>
    obtain ⟨k, w⟩ := hd
    obtain ⟨hhd, htl⟩ := sorted_cons.mp h
    rw [set]
    split
    · rename_i hlt
      refine sorted_cons.mpr ⟨?_, h⟩
      intro m hm
      rcases List.mem_cons.mp hm with rfl | hm
      · exact hlt
      · exact Std.TransCmp.lt_trans hlt (hhd m hm)
    · rename_i heq
      obtain rfl := Std.LawfulEqCmp.eq_of_compare heq
      exact sorted_cons.mpr ⟨hhd, htl⟩
    · rename_i hgt
      refine sorted_cons.mpr ⟨?_, ih htl⟩
      intro m hm
      rcases mem_set hm with rfl | hm
      · exact Std.OrientedCmp.lt_of_gt hgt
      · exact hhd m hm

/-- A key behind all others is put at the end. -/
theorem set_last [Std.OrientedCmp cmp] (h : ∀ a ∈ entries, cmp a.1 key = .lt) :
    set cmp key value entries = entries ++ [(key, value)] := by
  induction entries with
  | nil => rfl
  | cons hd tl ih =>
    obtain ⟨k, w⟩ := hd
    have hgt : cmp key k = .gt := Std.OrientedCmp.gt_of_lt (h _ List.mem_cons_self)
    rw [set, hgt]
    simp only
    rw [ih fun a ha => h a (List.mem_cons_of_mem _ ha)]
    rfl

/-- A lookup in the entries finds what the map of the entries holds. -/
theorem getElem?_ofList [BEq κ] [LawfulBEq κ] [Std.TransCmp cmp] [Std.LawfulEqCmp cmp]
    (h : Sorted cmp entries) (key : κ) :
    (Std.ExtTreeMap.ofList entries cmp)[key]? = entries.lookup key := by
  cases hl : entries.lookup key with
  | none =>
    have hnone : ∀ e ∈ entries, (key == e.1) = false := by
      simpa using List.lookup_eq_none_iff.mp hl
    apply Std.ExtTreeMap.getElem?_ofList_of_contains_eq_false
    rw [List.contains_eq_any_beq, List.any_eq_false]
    intro k hk
    obtain ⟨e, he, rfl⟩ := List.mem_map.mp hk
    simp [hnone e he]
  | some v =>
    obtain ⟨pre, post, rfl, -⟩ := List.lookup_eq_some_iff.mp hl
    refine Std.ExtTreeMap.getElem?_ofList_of_mem Std.ReflCmp.compare_self ?_ (by simp)
    exact h.imp fun hlt heq => by simp [hlt] at heq

theorem lookup_cons [BEq κ] [LawfulBEq κ] [DecidableEq κ] (k : κ) :
    (e :: entries).lookup k = if k = e.1 then some e.2 else entries.lookup k := by
  obtain ⟨l, w⟩ := e
  by_cases hk : k = l
  · simp [hk]
  · have hbeq : (k == l) = false := beq_eq_false_iff_ne.mpr hk
    simp [List.lookup_cons, hbeq, hk]

/-- The new value is found under its key, and every other key keeps its value. -/
theorem lookup_set [BEq κ] [LawfulBEq κ] [DecidableEq κ] [Std.OrientedCmp cmp]
    [Std.LawfulEqCmp cmp] (k : κ) :
    (set cmp key value entries).lookup k = if k = key then some value else entries.lookup k := by
  induction entries with
  | nil => rw [set, lookup_cons]
  | cons hd tl ih =>
    obtain ⟨l, w⟩ := hd
    rw [set]
    split
    · rw [lookup_cons]
    · rename_i heq
      obtain rfl := Std.LawfulEqCmp.eq_of_compare heq
      rw [lookup_cons, lookup_cons]
      split_ifs with hk
      · rfl
      · rfl
    · rename_i hgt
      have hne : key ≠ l := by
        rintro rfl
        have hself : cmp key key = .eq := Std.ReflCmp.compare_self
        rw [hself] at hgt
        cases hgt
      rw [lookup_cons, lookup_cons, ih]
      split_ifs with hl hk
      · exact (hne (hk.symm.trans hl)).elim
      · rfl
      · rfl
      · rfl

end OrderedMap
