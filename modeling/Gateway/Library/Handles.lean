import Mathlib

/-! The discipline of handles: opened while free, used while held, and released once. -/
namespace Handles

/-- What an event does to a handle. -/
inductive Access (R : Type) where
  | opens (r : R)
  | closes (r : R)
  | uses (r : R)
  | idle

variable {E R : Type} [DecidableEq R] {access : E → Access R} {held held' : Finset R} {r : R}
  {e : E} {evs : List E}

/-- The handles held after one access, if it keeps the discipline. -/
def touch (held : Finset R) : Access R → Option (Finset R)
  | .opens r => if r ∈ held then none else some (insert r held)
  | .closes r => if r ∈ held then some (held.erase r) else none
  | .uses r => if r ∈ held then some held else none
  | .idle => some held

/-- The handles held after a trace that keeps the discipline. -/
def heldAfter (access : E → Access R) : Finset R → List E → Option (Finset R)
  | held, [] => some held
  | held, e :: evs => (touch held (access e)).bind fun held' => heldAfter access held' evs

/-- A handle in hand is released, once, and not touched again before it is opened again. -/
def ReleasedOnce (access : E → Access R) (r : R) (evs : List E) : Prop :=
  ∃ mid c rest, evs = mid ++ c :: rest ∧ access c = .closes r ∧
    (∀ e ∈ mid, access e ≠ .closes r) ∧
    ∀ a b, rest = a ++ b → (∀ e ∈ a, access e ≠ .opens r) →
      ∀ e ∈ a, access e ≠ .closes r ∧ access e ≠ .uses r

theorem heldAfter_cons (h : heldAfter access held (e :: evs) = some held') :
    ∃ next, touch held (access e) = some next ∧ heldAfter access next evs = some held' :=
  Option.bind_eq_some_iff.mp h

/-- One access changes only the handle it names. -/
theorem mem_of_touch {a : Access R} {next : Finset R} (h : touch held a = some next)
    (hopen : a ≠ .opens r) (hclose : a ≠ .closes r) : r ∈ next ↔ r ∈ held := by
  cases a with
  | opens q =>
    have hne : r ≠ q := fun heq => hopen (heq ▸ rfl)
    obtain ⟨-, rfl⟩ := by simpa [touch] using h
    simp [hne]
  | closes q =>
    have hne : r ≠ q := fun heq => hclose (heq ▸ rfl)
    obtain ⟨-, rfl⟩ := by simpa [touch] using h
    simp [hne]
  | uses q =>
    obtain ⟨-, rfl⟩ := by simpa [touch] using h
    rfl
  | idle =>
    obtain rfl := by simpa [touch] using h
    rfl

/-- A free handle is not touched before it is opened. -/
theorem untouched_of_free (h : heldAfter access held evs = some held') (hfree : r ∉ held)
    (hopen : ∀ e ∈ evs, access e ≠ .opens r) :
    ∀ e ∈ evs, access e ≠ .closes r ∧ access e ≠ .uses r := by
  induction evs generalizing held with
  | nil => simp
  | cons e evs ih =>
    obtain ⟨next, htouch, hrest⟩ := heldAfter_cons h
    rw [List.forall_mem_cons] at hopen ⊢
    have hclose : access e ≠ .closes r := by
      intro hc
      rw [hc, touch, if_neg hfree] at htouch
      cases htouch
    have huse : access e ≠ .uses r := by
      intro hu
      rw [hu, touch, if_neg hfree] at htouch
      cases htouch
    refine ⟨⟨hclose, huse⟩, ih hrest ?_ hopen.2⟩
    rwa [mem_of_touch htouch hopen.1 hclose]

theorem heldAfter_append_left {a b : List E} (h : heldAfter access held (a ++ b) = some held') :
    ∃ next, heldAfter access held a = some next ∧ heldAfter access next b = some held' := by
  induction a generalizing held with
  | nil => exact ⟨held, rfl, h⟩
  | cons e a ih =>
    obtain ⟨next, htouch, hrest⟩ := heldAfter_cons h
    obtain ⟨last, ha, hb⟩ := ih hrest
    refine ⟨last, ?_, hb⟩
    rw [heldAfter, htouch]
    exact ha

/-- A handle held at the start and no longer at the end was released once. -/
theorem releasedOnce_of_held (h : heldAfter access held evs = some held') (hheld : r ∈ held)
    (hfree : r ∉ held') : ReleasedOnce access r evs := by
  induction evs generalizing held with
  | nil =>
    cases h
    exact (hfree hheld).elim
  | cons e evs ih =>
    obtain ⟨next, htouch, hrest⟩ := heldAfter_cons h
    by_cases hclose : access e = .closes r
    · refine ⟨[], e, evs, rfl, hclose, by simp, ?_⟩
      rintro a b rfl hopen
      obtain ⟨mid, ha, -⟩ := heldAfter_append_left hrest
      rw [hclose, touch, if_pos hheld] at htouch
      cases htouch
      exact untouched_of_free ha (Finset.notMem_erase r held) hopen
    · have hopen : access e ≠ .opens r := by
        intro ho
        rw [ho, touch, if_pos hheld] at htouch
        cases htouch
      obtain ⟨mid, c, rest, rfl, hc, hmid, hafter⟩ :=
        ih hrest ((mem_of_touch htouch hopen hclose).mpr hheld)
      refine ⟨e :: mid, c, rest, rfl, hc, ?_, hafter⟩
      rw [List.forall_mem_cons]
      exact ⟨hclose, hmid⟩

/-- What was opened in a trace and is free at its end was released once after that. -/
theorem releasedOnce_of_opens {pre post : List E}
    (h : heldAfter access held (pre ++ e :: post) = some held') (hopen : access e = .opens r)
    (hfree : r ∉ held') : ReleasedOnce access r post := by
  obtain ⟨mid, -, hrest⟩ := heldAfter_append_left h
  obtain ⟨next, htouch, hpost⟩ := heldAfter_cons hrest
  apply releasedOnce_of_held hpost ?_ hfree
  rw [hopen, touch] at htouch
  split at htouch
  · cases htouch
  · cases htouch
    exact Finset.mem_insert_self r mid

end Handles
