import Mathlib

/-! Strings with checked positions: an operation fails where its position is out of range. -/
namespace Positions

/-- Why an operation fails: a position outside its string, or text that is no number. -/
inductive Fault where
  | position
  | number
  deriving DecidableEq

variable {α β : Type} {s : List α} {i j pos n : Nat} {p : α → Bool}

/-- The part from a position on, of at most `n` elements, or without `n` to the end. -/
def substr (s : List α) (pos : Nat) (n : Option Nat) : Except Fault (List α) :=
  if s.length < pos then .error .position
  else
    match n with
    | none => .ok (s.drop pos)
    | some n => .ok ((s.drop pos).take n)

def itemAt (s : List α) (i : Nat) : Except Fault α :=
  match s[i]? with
  | some x => .ok x
  | none => .error .position

def back (s : List α) : Except Fault α :=
  match s.getLast? with
  | some x => .ok x
  | none => .error .position

def popBack (s : List α) : Except Fault (List α) :=
  if s.length = 0 then .error .position else .ok s.dropLast

/-- A resize; one that would make the list longer is a fault. -/
def resize (s : List α) (n : Nat) : Except Fault (List α) :=
  if s.length < n then .error .position else .ok (s.take n)

/-- The distance of two positions; one below zero is a fault. -/
def minus (i j : Nat) : Except Fault Nat :=
  if i < j then .error .position else .ok (i - j)

/-- The result of a search used as a position. -/
def found : Option Nat → Except Fault Nat
  | some i => .ok i
  | none => .error .position

/-- The part before a position that a search may have found, or else the whole. -/
def before (s : List α) : Option Nat → Except Fault (List α)
  | none => .ok s
  | some i => substr s 0 (some i)

/-- The part from a position on that a search may have found, or else `d`. -/
def onward (s d : List α) : Option Nat → Except Fault (List α)
  | none => .ok d
  | some i => substr s i none

/-- Handles the failure of a conversion. A position out of range stays a fault. -/
def catching (x handler : Except Fault α) : Except Fault α :=
  match x with
  | .error .number => handler
  | r => r

/-- The position of the first element that is not skipped. -/
def firstNotOf (p : α → Bool) (s : List α) : Option Nat := s.findIdx? (!p ·)

/-- The position of the last element that is not skipped. -/
def lastNotOf (p : α → Bool) (s : List α) : Option Nat :=
  (s.reverse.findIdx? (!p ·)).map (s.length - 1 - ·)

@[simp] theorem ok_bind (a : α) (f : α → Except Fault β) : (Except.ok a >>= f) = f a := rfl

@[simp] theorem error_bind (e : Fault) (f : α → Except Fault β) :
    (Except.error e >>= f) = Except.error e := rfl

@[simp] theorem pure_eq_ok (a : α) : (pure a : Except Fault α) = .ok a := rfl

@[simp] theorem catching_ok (a : α) (handler : Except Fault α) :
    catching (.ok a) handler = .ok a := rfl

@[simp] theorem found_some : found (some i) = .ok i := rfl

theorem substr_ok (h : pos ≤ s.length) :
    substr s pos (some n) = .ok ((s.drop pos).take n) := by
  rw [substr, if_neg (Nat.not_lt.mpr h)]

theorem substr_rest_ok (h : pos ≤ s.length) : substr s pos none = .ok (s.drop pos) := by
  rw [substr, if_neg (Nat.not_lt.mpr h)]

example : substr [1, 2] 3 none = .error .position := rfl

theorem substr_zero : substr s 0 (some n) = .ok (s.take n) := by
  rw [substr_ok (Nat.zero_le _), List.drop_zero]

theorem before_ok : before s (some i) = .ok (s.take i) := substr_zero

theorem onward_ok {d : List α} (h : i ≤ s.length) : onward s d (some i) = .ok (s.drop i) :=
  substr_rest_ok h

theorem itemAt_ok (h : i < s.length) : itemAt s i = .ok s[i] := by
  rw [itemAt, List.getElem?_eq_getElem h]

theorem back_concat (s : List α) (x : α) : back (s ++ [x]) = .ok x := by
  rw [back, List.getLast?_concat]

theorem popBack_concat (s : List α) (x : α) : popBack (s ++ [x]) = .ok s := by
  rw [popBack, if_neg (by simp), List.dropLast_concat]

theorem resize_ok (h : n ≤ s.length) : resize s n = .ok (s.take n) := by
  rw [resize, if_neg (Nat.not_lt.mpr h)]

theorem minus_ok (h : j ≤ i) : minus i j = .ok (i - j) := by
  rw [minus, if_neg (Nat.not_lt.mpr h)]

/-- What `popBack` returns is shorter. -/
theorem popBack_length {t : List α} (h : popBack s = .ok t) : t.length < s.length := by
  unfold popBack at h
  split at h
  · cases h
  · cases h
    rw [List.length_dropLast]
    omega

theorem trim_of_firstNotOf_none (h : firstNotOf p s = none) :
    (s.dropWhile p).rdropWhile p = [] := by
  have hall : ∀ x ∈ s, p x = true := by simpa [firstNotOf] using h
  rw [List.dropWhile_eq_nil_iff.mpr hall]
  rfl

/-- Where one element is not skipped, the last such element is not before the first, and between
them lies what a trim leaves. -/
theorem trim_of_firstNotOf (h : firstNotOf p s = some i) :
    ∃ j, lastNotOf p s = some j ∧ i ≤ j ∧ j < s.length ∧
      (s.drop i).take (j - i + 1) = (s.dropWhile p).rdropWhile p := by
  obtain ⟨hi, hidx⟩ := List.findIdx?_eq_some_iff_findIdx_eq.mp h
  have hdrop : s.dropWhile p = s.drop i := by
    rw [List.dropWhile_eq_drop_findIdx_not, hidx]
  have hkeep : (!p s[i]) = true := by
    have hfound := @List.findIdx_getElem α (!p ·) s (hidx ▸ hi)
    simpa only [hidx] using hfound
  have hmem : s[i] ∈ (s.drop i).reverse := by
    rw [List.mem_reverse, List.drop_eq_getElem_cons hi]
    exact List.mem_cons_self
  have hback := @List.findIdx_lt_length_of_exists α (!p ·) _ ⟨s[i], hmem, hkeep⟩
  generalize hk : (s.drop i).reverse.findIdx (!p ·) = k at hback
  rw [List.length_reverse, List.length_drop] at hback
  have hlast : s.reverse.findIdx? (!p ·) = some k := by
    have hsplit : s.reverse = (s.drop i).reverse ++ (s.take i).reverse := by
      rw [← List.reverse_append, List.take_append_drop]
    refine List.findIdx?_eq_some_iff_findIdx_eq.mpr ⟨?_, ?_⟩
    · rw [List.length_reverse]
      omega
    · rw [hsplit, List.findIdx_append, hk, if_pos]
      rw [List.length_reverse, List.length_drop]
      exact hback
  have hrdrop : (s.drop i).rdropWhile p = (s.drop i).take (s.length - i - k) := by
    rw [List.rdropWhile, List.dropWhile_eq_drop_findIdx_not, hk, List.drop_reverse,
      List.reverse_reverse, List.length_drop]
  refine ⟨s.length - 1 - k, by rw [lastNotOf, hlast, Option.map_some], by omega, by omega, ?_⟩
  rw [hdrop, hrdrop]
  congr 1
  omega

end Positions
