import Mathlib

/-! A table of handles shared by many holders: what is in use is in someone's share. -/
namespace Accounts

variable {R α β : Type} {used used' common common' share share' : Finset R}
  {shares : List (Finset R)} {r : R} {k : Nat}

/-- Every handle in use is a common one, or in the share of a holder. -/
def Accounted (common : Finset R) (shares : List (Finset R)) (used : Finset R) : Prop :=
  ∀ r ∈ used, r ∈ common ∨ ∃ share ∈ shares, r ∈ share

/-- What is common and in use stays common, and so does what comes into use. -/
theorem Accounted.change_common (h : Accounted common shares used)
    (hcommon : ∀ r ∈ common, r ∈ used' → r ∈ common')
    (hused : ∀ r ∈ used', r ∈ used ∨ r ∈ common') : Accounted common' shares used' := by
  intro r hr
  rcases hused r hr with hold | hnew
  · rcases h r hold with hr' | hshare
    · exact Or.inl (hcommon r hr' hr)
    · exact Or.inr hshare
  · exact Or.inl hnew

/-- One holder moves: what it gives up is no longer in use, and what is new is in its share. -/
theorem Accounted.set (h : Accounted common shares used) (hk : shares[k]? = some share)
    (hgiven : ∀ r ∈ share, r ∈ used' → r ∈ share')
    (htaken : ∀ r ∈ used', r ∈ used ∨ r ∈ share') :
    Accounted common (shares.set k share') used' := by
  obtain ⟨hlt, rfl⟩ := List.getElem?_eq_some_iff.mp hk
  have hmine : share' ∈ shares.set k share' := List.mem_set hlt share'
  intro r hr
  rcases htaken r hr with hold | hnew
  · rcases h r hold with hcommon | ⟨other, hother, hmem⟩
    · exact Or.inl hcommon
    · right
      obtain ⟨i, hi, rfl⟩ := List.getElem_of_mem hother
      by_cases hki : k = i
      · subst hki
        exact ⟨share', hmine, hgiven r hmem hr⟩
      · refine ⟨shares[i], ?_, hmem⟩
        rw [← List.getElem_set_ne hki (by simpa using hi)]
        exact List.getElem_mem _
  · exact Or.inr ⟨share', hmine, hnew⟩

/-- A common handle becomes the share of a new holder. -/
theorem Accounted.handOver [DecidableEq R] (h : Accounted (insert r common) shares used) :
    Accounted common (shares ++ [{r}]) used := by
  intro q hq
  rcases h q hq with hcommon | ⟨share, hshare, hmem⟩
  · rcases Finset.mem_insert.mp hcommon with rfl | hcommon
    · exact Or.inr ⟨{q}, by simp, Finset.mem_singleton_self q⟩
    · exact Or.inl hcommon
  · exact Or.inr ⟨share, List.mem_append_left _ hshare, hmem⟩

/-- There are no more handles in use than the shares hold together. -/
theorem Accounted.card_le [DecidableEq R] (h : Accounted common shares used) :
    used.card ≤ common.card + (shares.map Finset.card).sum := by
  induction shares generalizing used with
  | nil =>
    have hsub : used ⊆ common := by
      intro r hr
      simpa using h r hr
    simpa using Finset.card_le_card hsub
  | cons share shares ih =>
    have hrest : Accounted common shares (used \ share) := by
      intro r hr
      obtain ⟨hused, hnot⟩ := Finset.mem_sdiff.mp hr
      rcases h r hused with hcommon | ⟨other, hother, hmem⟩
      · exact Or.inl hcommon
      · rcases List.mem_cons.mp hother with rfl | hother
        · exact (hnot hmem).elim
        · exact Or.inr ⟨other, hother, hmem⟩
    have hle := ih hrest
    have hsplit := Finset.card_le_card_sdiff_add_card (s := used) (t := share)
    rw [List.map_cons, List.sum_cons]
    omega

/-- Two lists that correspond still do after both were changed at one place. -/
theorem forall₂_set {P : α → β → Prop} {as : List α} {bs : List β} {a : α} {b : β}
    (h : List.Forall₂ P as bs) (hab : P a b) : List.Forall₂ P (as.set k a) (bs.set k b) := by
  induction h generalizing k with
  | nil => exact .nil
  | cons hhead htail ih =>
    cases k with
    | zero => exact .cons hab htail
    | succ k => exact .cons hhead ih

theorem exists_getElem? {P : α → β → Prop} {as : List α} {bs : List β} {a : α}
    (h : List.Forall₂ P as bs) (hk : as[k]? = some a) : ∃ b, bs[k]? = some b ∧ P a b := by
  induction h generalizing k with
  | nil => cases hk
  | @cons a₁ b₁ as bs hhead htail ih =>
    cases k with
    | zero =>
      cases hk
      exact ⟨b₁, rfl, hhead⟩
    | succ k => exact ih hk

theorem set_of_getElem? {as : List α} {a : α} (h : as[k]? = some a) : as.set k a = as := by
  obtain ⟨hlt, rfl⟩ := List.getElem?_eq_some_iff.mp h
  exact List.set_getElem_self hlt

/-- The lowest number that is not in use is at most the count of those that are. -/
theorem le_card_of_isLeast {used : Finset ℕ} {n : ℕ} (h : IsLeast {m | m ∉ used} n) :
    n ≤ used.card := by
  have hsub : Finset.range n ⊆ used := by
    intro m hm
    by_contra hfree
    have hle := h.2 hfree
    rw [Finset.mem_range] at hm
    omega
  simpa using Finset.card_le_card hsub

theorem isLeast_range (n : ℕ) : IsLeast {m | m ∉ Finset.range n} n := by
  refine ⟨by simp, ?_⟩
  intro m hm
  simpa using hm

section titles
variable {O : Type} [DecidableEq R] {owner : R → Option O} {hold hold' : O → Finset R} {o o' : O}

/-- Each handle is owned by the one holder that has it, or by nobody. -/
def Titled (owner : R → Option O) (hold : O → Finset R) : Prop :=
  ∀ r o, owner r = some o ↔ r ∈ hold o

/-- A holder takes a handle that nobody owns. -/
theorem Titled.take (h : Titled owner hold) (free : owner r = none)
    (hself : ∀ q, q ∈ hold' o ↔ q = r ∨ q ∈ hold o) (hothers : ∀ o' ≠ o, hold' o' = hold o') :
    Titled (Function.update owner r (some o)) hold' := by
  intro q o'
  rcases eq_or_ne o' o with rfl | hne
  · rw [hself]
    rcases eq_or_ne q r with rfl | hq
    · simp
    · simp [hq, h q o']
  · rw [hothers o' hne]
    rcases eq_or_ne q r with rfl | hq
    · simp [← h q o', free, hne.symm]
    · simp [hq, h q o']

/-- A holder gives up a handle that it owns. -/
theorem Titled.drop (h : Titled owner hold) (mine : r ∈ hold o)
    (hself : ∀ q, q ∈ hold' o ↔ q ≠ r ∧ q ∈ hold o) (hothers : ∀ o' ≠ o, hold' o' = hold o') :
    Titled (Function.update owner r none) hold' := by
  have howned := (h r o).mpr mine
  intro q o'
  rcases eq_or_ne o' o with rfl | hne
  · rw [hself]
    rcases eq_or_ne q r with rfl | hq
    · simp
    · simp [hq, h q o']
  · rw [hothers o' hne]
    rcases eq_or_ne q r with rfl | hq
    · simp [← h q o', howned, hne.symm]
    · simp [hq, h q o']

/-- A holder hands one of its handles to another. -/
theorem Titled.give (h : Titled owner hold) (mine : r ∈ hold o) (hne : o' ≠ o)
    (hsource : ∀ q, q ∈ hold' o ↔ q ≠ r ∧ q ∈ hold o)
    (htarget : ∀ q, q ∈ hold' o' ↔ q = r ∨ q ∈ hold o')
    (hothers : ∀ o'' ≠ o, o'' ≠ o' → hold' o'' = hold o'') :
    Titled (Function.update owner r (some o')) hold' := by
  classical
  have hdrop : Titled (Function.update owner r none)
      (Function.update hold o ((hold o).erase r)) := by
    apply h.drop mine
    · intro q
      simp
    · intro o'' ho
      simp [ho]
  have htake : Titled (Function.update (Function.update owner r none) r (some o')) hold' :=
    hdrop.take (by simp) ?_ ?_
  · simpa using htake
  · intro q
    rw [htarget, Function.update_of_ne hne]
  · intro o'' ho'
    rcases eq_or_ne o'' o with rfl | ho
    · rw [Function.update_self]
      ext q
      rw [hsource, Finset.mem_erase]
    · rw [Function.update_of_ne ho, hothers o'' ho ho']

end titles

end Accounts
