import Mathlib
import Gateway.Picojson
import Gateway.Library.JsonText
import Gateway.Library.Results

/-! What the picojson parser returns: the range of its numbers, the order of its members and how
deep they nest; and that it always has the fuel to read on. -/
namespace Gateway.Picojson

open OrderedMap Results

/-- The values that are parsed where `depths` are left. -/
inductive Parsed : Nat → Json → Prop
  | null {depths} : Parsed depths .null
  | boolean {depths} (b : Bool) : Parsed depths (.boolean b)
  | int64 {depths} {n : Int} (hlo : -2 ^ 63 ≤ n) (hhi : n < 2 ^ 63) : Parsed depths (.int64 n)
  | number {depths} : Parsed depths .number
  | string {depths} (s : Bytes) : Parsed depths (.string s)
  | array {depths} {items : List Json} (hitems : ∀ v ∈ items, Parsed depths v) :
      Parsed (depths + 1) (.array items)
  | object {depths} {members : List (Bytes × Json)} (hkeys : Sorted compare members)
      (hmembers : ∀ m ∈ members, Parsed (depths + 1) m.2) : Parsed (depths + 1) (.object members)

variable {fuel depths : Nat} {s t : Bytes} {v : Json} {items : List Json}
  {members : List (Bytes × Json)}

theorem numberValue_parsed (h : numberValue s = .ok v) : Parsed depths v := by
  unfold numberValue at h
  split at h
  · rename_i n hn
    cases h
    simp only [wholeInt64, Option.ite_none_right_eq_some, Option.some.injEq] at hn
    obtain ⟨⟨-, -, hlo, hhi⟩, rfl⟩ := hn
    exact .int64 hlo hhi
  · split at h
    · split at h
      · cases h
      · cases h
        exact .number
    · cases h

/-- What one more turn of the fuel may rely on: what the calls below it return. -/
structure ReturnsParsed (fuel : Nat) : Prop where
  value : ∀ {depths s v t}, parseValue fuel depths s = .ok (v, t) → Parsed depths v
  items : ∀ {depths items s r t}, parseItems fuel depths items s = .ok (r, t) →
    (∀ v ∈ items, Parsed depths v) → ∀ v ∈ r, Parsed depths v
  members : ∀ {depths members s r t}, parseMembers fuel depths members s = .ok (r, t) →
    Sorted compare members → (∀ m ∈ members, Parsed depths m.2) →
    Sorted compare r ∧ ∀ m ∈ r, Parsed depths m.2

theorem parseValue_parsed (ih : ReturnsParsed fuel)
    (h : parseValue (fuel + 1) depths s = .ok (v, t)) : Parsed depths v := by
  rw [parseValue] at h
  split at h
  · cases h
  · split at h
    · obtain ⟨_, -, h⟩ := bind_eq_ok.mp h
      cases h
      exact .null
    split at h
    · obtain ⟨_, -, h⟩ := bind_eq_ok.mp h
      cases h
      exact .boolean false
    split at h
    · obtain ⟨_, -, h⟩ := bind_eq_ok.mp h
      cases h
      exact .boolean true
    split at h
    · obtain ⟨_, -, h⟩ := bind_eq_ok.mp h
      cases h
      exact .string _
    split at h
    · split at h
      · cases h
      · simp only at h
        split at h
        · cases h
          exact .array (by simp)
        · obtain ⟨⟨r, t⟩, hr, h⟩ := bind_eq_ok.mp h
          cases h
          exact .array (ih.items hr (by simp))
    split at h
    · split at h
      · cases h
      · rename_i hdepths
        obtain ⟨d, rfl⟩ := Nat.exists_eq_succ_of_ne_zero hdepths
        simp only at h
        split at h
        · cases h
          exact .object sorted_nil (by simp)
        · obtain ⟨⟨r, t⟩, hr, h⟩ := bind_eq_ok.mp h
          cases h
          obtain ⟨hsorted, hmembers⟩ := ih.members hr sorted_nil (by simp)
          exact .object hsorted hmembers
    split at h
    · obtain ⟨_, hnumber, h⟩ := bind_eq_ok.mp h
      cases h
      exact numberValue_parsed hnumber
    · cases h

theorem parseItems_parsed (ih : ReturnsParsed fuel) {r : List Json}
    (h : parseItems (fuel + 1) depths items s = .ok (r, t))
    (hitems : ∀ v ∈ items, Parsed depths v) : ∀ v ∈ r, Parsed depths v := by
  rw [parseItems] at h
  obtain ⟨⟨v, t⟩, hv, h⟩ := bind_eq_ok.mp h
  have hmore : ∀ w ∈ items ++ [v], Parsed depths w := by
    intro w hw
    rcases List.mem_append.mp hw with hw | hw
    · exact hitems w hw
    · obtain rfl := List.mem_singleton.mp hw
      exact ih.value hv
  simp only at h
  split at h
  · exact ih.items h hmore
  · split at h
    · cases h
      exact hmore
    · cases h

theorem parseMembers_parsed (ih : ReturnsParsed fuel) {r : List (Bytes × Json)}
    (h : parseMembers (fuel + 1) depths members s = .ok (r, t))
    (hkeys : Sorted compare members) (hmembers : ∀ m ∈ members, Parsed depths m.2) :
    Sorted compare r ∧ ∀ m ∈ r, Parsed depths m.2 := by
  rw [parseMembers] at h
  simp only at h
  split at h
  · cases h
  obtain ⟨⟨key, t⟩, -, h⟩ := bind_eq_ok.mp h
  simp only at h
  split at h
  · cases h
  obtain ⟨⟨v, t⟩, hv, h⟩ := bind_eq_ok.mp h
  have hmore : ∀ m ∈ setMember key v members, Parsed depths m.2 := by
    intro m hm
    rcases mem_set hm with rfl | hm
    · exact ih.value hv
    · exact hmembers m hm
  simp only at h
  split at h
  · exact ih.members h (set_sorted hkeys) hmore
  · split at h
    · cases h
      exact ⟨set_sorted hkeys, hmore⟩
    · cases h

theorem returnsParsed (fuel : Nat) : ReturnsParsed fuel := by
  induction fuel with
  | zero =>
    refine ⟨?_, ?_, ?_⟩
    · intro depths s v t h
      cases h
    · intro depths items s r t h
      cases h
    · intro depths members s r t h
      cases h
  | succ fuel ih => exact ⟨parseValue_parsed ih, parseItems_parsed ih, parseMembers_parsed ih⟩

theorem parse_parsed (h : parse s = .ok v) : Parsed DEFAULT_MAX_DEPTHS v := by
  obtain ⟨⟨v, t⟩, hv, h⟩ := bind_eq_ok.mp h
  cases h
  exact (returnsParsed _).value hv

/-- The fuel sufficed, and what is left to read is shorter than `n`. -/
def Reads {α : Type} (n : Nat) : Except ParseError (α × Bytes) → Prop :=
  Meets (· ≠ .outOfFuel) fun r => r.2.length < n

/-- The whitespace of this parser is that of every JSON text. -/
theorem expect_eq (c : UInt8) (s : Bytes) : expect c s = match JsonText.expect c s with
    | some t => (true, t)
    | none => (false, skipWs s) := by
  rw [expect, JsonText.expect, show JsonText.skipBlank s = skipWs s from rfl]
  cases skipWs s with
  | nil => rfl
  | cons d t =>
    dsimp only
    split <;> rfl

theorem expect_length (c : UInt8) (s : Bytes) :
    (expect c s).2.length ≤ s.length ∧
      ((expect c s).1 = true → (expect c s).2.length < s.length) := by
  rw [expect_eq]
  cases h : JsonText.expect c s with
  | none => exact ⟨JsonText.skipBlank_length s, nofun⟩
  | some t =>
    have hlen := JsonText.expect_length h
    exact ⟨Nat.le_of_succ_le hlen, fun _ => hlen⟩

theorem matchText_meets (pattern s : Bytes) :
    Meets (· ≠ .outOfFuel) (fun t : Bytes => t.length ≤ s.length) (matchText pattern s) := by
  unfold matchText
  split
  · simp
  · simp

theorem quadhexDigit_meets (c : UInt8) :
    Meets (· ≠ .outOfFuel) (fun _ => True) (quadhexDigit c) := by
  unfold quadhexDigit
  split
  · trivial
  split
  · trivial
  split
  · trivial
  · simp

theorem parseQuadhex_reads (s : Bytes) : Reads s.length (parseQuadhex s) := by
  unfold parseQuadhex
  split
  · rename_i a b c d t
    refine meets_bind (quadhexDigit_meets a) fun _ _ => ?_
    refine meets_bind (quadhexDigit_meets b) fun _ _ => ?_
    refine meets_bind (quadhexDigit_meets c) fun _ _ => ?_
    refine meets_bind (quadhexDigit_meets d) fun _ _ => ?_
    simp
    omega
  · simp [Reads]

theorem parseCodepoint_reads (s : Bytes) : Reads s.length (parseCodepoint s) := by
  unfold parseCodepoint
  refine meets_bind (parseQuadhex_reads s) ?_
  rintro ⟨uniCh, t⟩ ht
  simp only at ht ⊢
  split
  · split
    · simp
    · split
      · rename_i t
        simp only [List.length_cons] at ht
        refine meets_bind (parseQuadhex_reads t) ?_
        rintro ⟨second, t⟩ htt
        simp only at htt ⊢
        split
        · simp only [meets_pure]
          omega
        · simp
      · simp
  · simpa using ht

theorem stringLoop_reads {out : Bytes} (h : s.length + 1 ≤ fuel) :
    Reads s.length (stringLoop fuel out s) := by
  induction fuel generalizing out s with
  | zero => omega
  | succ fuel ih =>
    cases s with
    | nil => simp [stringLoop, Reads]
    | cons ch t =>
      simp only [List.length_cons] at h ⊢
      have hshort : ∀ {out' t'}, t'.length ≤ t.length →
          Reads (t.length + 1) (stringLoop fuel out' t') :=
        fun ht => (ih (by omega)).mono fun _ hr => by omega
      rw [stringLoop.eq_def]
      simp only
      split
      · simp [Reads]
      split
      · simp [Reads]
      split
      · cases t with
        | nil => simp [Reads]
        | cons ch t =>
          simp only
          split
          · exact hshort (by simp)
          · split
            · refine meets_bind (parseCodepoint_reads t) ?_
              rintro ⟨pushed, t'⟩ ht
              simp only at ht ⊢
              exact hshort (by simp only [List.length_cons]; omega)
            · simp [Reads]
      · exact hshort le_rfl

theorem parseString_reads (s : Bytes) : Reads s.length (parseString s) := stringLoop_reads le_rfl

theorem numberValue_meets (s : Bytes) :
    Meets (· ≠ .outOfFuel) (fun _ => True) (numberValue s) := by
  unfold numberValue
  split
  · trivial
  · split
    · rename_i x _
      generalize x.isInf = inf
      cases inf with
      | false => trivial
      | true => simp
    · simp

/-- What one more turn of the fuel may rely on: that the calls below it have enough. -/
structure HasFuel (fuel : Nat) : Prop where
  value : ∀ {depths s}, 2 * s.length + 1 ≤ fuel → Reads s.length (parseValue fuel depths s)
  items : ∀ {depths items s}, 2 * s.length + 2 ≤ fuel →
    Reads s.length (parseItems fuel depths items s)
  members : ∀ {depths members s}, 2 * s.length + 2 ≤ fuel →
    Reads s.length (parseMembers fuel depths members s)

theorem parseValue_reads (ih : HasFuel fuel) (h : 2 * s.length + 1 ≤ fuel + 1) :
    Reads s.length (parseValue (fuel + 1) depths s) := by
  have hskip : (skipWs s).length ≤ s.length := JsonText.skipBlank_length s
  rw [parseValue]
  split
  · simp [Reads]
  · rename_i ch t heq
    rw [heq, List.length_cons] at hskip
    have hword : ∀ {w : Bytes} {v : Json},
        Reads s.length (do return (v, ← matchText w t) : Except ParseError (Json × Bytes)) := by
      intro w v
      refine meets_bind (matchText_meets w t) fun t' ht => ?_
      simp only [meets_pure]
      omega
    split
    · exact hword
    split
    · exact hword
    split
    · exact hword
    split
    · refine meets_bind (parseString_reads t) ?_
      rintro ⟨str, t'⟩ ht
      simp only [meets_pure] at ht ⊢
      omega
    split
    · split
      · simp [Reads]
      · have hexpect := expect_length 93 t
        simp only
        split
        · simp only [Reads, meets_pure]
          omega
        · refine meets_bind (ih.items (by omega)) ?_
          rintro ⟨r, t'⟩ ht
          simp only [meets_pure] at ht ⊢
          omega
    split
    · split
      · simp [Reads]
      · have hexpect := expect_length 125 t
        simp only
        split
        · simp only [Reads, meets_pure]
          omega
        · refine meets_bind (ih.members (by omega)) ?_
          rintro ⟨r, t'⟩ ht
          simp only [meets_pure] at ht ⊢
          omega
    split
    · rename_i hnumber
      refine meets_bind (numberValue_meets _) fun v _ => ?_
      have hch : isNumberChar ch = true := by
        simp only [Bool.or_eq_true, beq_iff_eq] at hnumber
        rcases hnumber with hdigit | rfl
        · simp [isNumberChar, hdigit]
        · decide
      have hrest := (List.dropWhile_suffix (l := t) isNumberChar).length_le
      simp only [meets_pure, List.dropWhile_cons, hch, if_true]
      omega
    · simp [Reads]

theorem parseItems_reads (ih : HasFuel fuel) (h : 2 * s.length + 2 ≤ fuel + 1) :
    Reads s.length (parseItems (fuel + 1) depths items s) := by
  rw [parseItems]
  refine meets_bind (ih.value (by omega)) ?_
  rintro ⟨v, t⟩ ht
  have hcomma := expect_length 44 t
  have hstop := expect_length 93 (expect 44 t).2
  simp only at ht ⊢
  split
  · rename_i hmore
    exact (ih.items (by omega)).mono fun _ hr => by omega
  · split
    · simp only [meets_pure]
      omega
    · simp

theorem parseMembers_reads (ih : HasFuel fuel) (h : 2 * s.length + 2 ≤ fuel + 1) :
    Reads s.length (parseMembers (fuel + 1) depths members s) := by
  have hquote := expect_length 34 s
  rw [parseMembers]
  simp only
  split
  · simp [Reads, bind, Except.bind]
  refine meets_bind (parseString_reads _) ?_
  rintro ⟨key, t⟩ ht
  have hcolon := expect_length 58 t
  simp only at ht ⊢
  split
  · simp [bind, Except.bind]
  refine meets_bind (ih.value (by omega)) ?_
  rintro ⟨v, t'⟩ ht'
  have hcomma := expect_length 44 t'
  have hstop := expect_length 125 (expect 44 t').2
  simp only at ht' ⊢
  split
  · exact (ih.members (by omega)).mono fun _ hr => by omega
  · split
    · simp only [meets_pure]
      omega
    · simp

theorem hasFuel (fuel : Nat) : HasFuel fuel := by
  induction fuel with
  | zero => exact ⟨fun h => by omega, fun h => by omega, fun h => by omega⟩
  | succ fuel ih => exact ⟨parseValue_reads ih, parseItems_reads ih, parseMembers_reads ih⟩

theorem parse_enough_fuel (s : Bytes) : parse s ≠ .error .outOfFuel := by
  have hreads : Reads s.length (parseValue (2 * s.length + 1) DEFAULT_MAX_DEPTHS s) :=
    (hasFuel _).value le_rfl
  have hmeets : Meets (· ≠ .outOfFuel) (fun _ => True) (parse s) :=
    meets_bind hreads fun _ _ => meets_pure.mpr trivial
  exact fun h => hmeets.of_error h rfl

end Gateway.Picojson
