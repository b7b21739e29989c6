import Mathlib

/-! A map filled from a list of fields, where a later field replaces an earlier one of its name. -/
namespace LastWins

variable {κ β : Type} [DecidableEq κ] {cmp : κ → κ → Ordering} [Std.TransCmp cmp]
  [Std.LawfulEqCmp cmp] {fields : List (κ × β)} {f : κ × β} {name : κ}

/-- The value of the last field of a name. -/
def lastValue (fields : List (κ × β)) (name : κ) : Option β :=
  (fields.filter (·.1 = name)).getLast?.map Prod.snd

def store (m : Std.ExtTreeMap κ β cmp) (f : κ × β) : Std.ExtTreeMap κ β cmp := m.insert f.1 f.2

/-- The map after all the fields. -/
def stored (cmp : κ → κ → Ordering) [Std.TransCmp cmp] (fields : List (κ × β)) :
    Std.ExtTreeMap κ β cmp := fields.foldl store ∅

/-- The names of the fields, each once. -/
def names (fields : List (κ × β)) : Finset κ := (fields.map Prod.fst).toFinset

@[simp] theorem lastValue_nil : lastValue ([] : List (κ × β)) name = none := rfl

theorem lastValue_concat : lastValue (fields ++ [f]) name =
    if f.1 = name then some f.2 else lastValue fields name := by
  unfold lastValue
  split
  · rename_i h
    simp [h]
  · rename_i h
    simp [h]

@[simp] theorem names_concat : names (fields ++ [f]) = insert f.1 (names fields) := by
  ext n
  simp [names, eq_comm]

omit [DecidableEq κ] [Std.LawfulEqCmp cmp] in
@[simp] theorem stored_concat :
    stored cmp (fields ++ [f]) = store (stored cmp fields) f := by
  simp [stored]

/-- The map holds the last value of each name and no other key. -/
theorem getElem?_stored : (stored cmp fields)[name]? = lastValue fields name := by
  induction fields using List.reverseRecOn with
  | nil => simp [stored]
  | append_singleton fields f ih =>
    rw [stored_concat, lastValue_concat, store, Std.ExtTreeMap.getElem?_insert, ih]
    simp only [Std.LawfulEqCmp.compare_eq_iff_eq]

theorem mem_names_iff : name ∈ names fields ↔ (lastValue fields name).isSome := by
  induction fields using List.reverseRecOn with
  | nil => simp [names]
  | append_singleton fields f ih =>
    rw [names_concat, lastValue_concat, Finset.mem_insert, ih]
    split
    · simp_all
    · rename_i hne
      simp [Ne.symm hne]

/-- The map has one entry for each name. -/
theorem size_stored : (stored cmp fields).size = (names fields).card := by
  induction fields using List.reverseRecOn with
  | nil => simp [stored, names]
  | append_singleton fields f ih =>
    rw [stored_concat, names_concat, store, Std.ExtTreeMap.size_insert, ih]
    have hmem : (stored cmp fields).contains f.1 = true ↔ f.1 ∈ names fields := by
      have hvalue : (stored cmp fields)[f.1]? = lastValue fields f.1 := getElem?_stored
      rw [mem_names_iff, ← hvalue, Std.ExtTreeMap.isSome_getElem?_eq_contains]
    by_cases hin : f.1 ∈ names fields
    · rw [if_pos (hmem.mpr hin), Finset.insert_eq_of_mem hin]
    · rw [if_neg (mt hmem.mp hin), Finset.card_insert_of_notMem hin]

end LastWins
