import Mathlib

/-! JSON over bytes: a reader for all of its syntax, and how long a text has to be. -/
namespace JsonText

/-- A decoded text; strings are in UTF-8 where they were escaped. -/
inductive Value where
  | null
  | boolean (b : Bool)
  | number (text : List UInt8)
  | string (s : List UInt8)
  | array (items : List Value)
  | object (members : List (List UInt8 × Value))

def skipBlank (s : List UInt8) : List UInt8 :=
  s.dropWhile fun c => c == 32 || c == 9 || c == 10 || c == 13

/-- Skips blanks and then one byte. -/
def expect (c : UInt8) (s : List UInt8) : Option (List UInt8) :=
  match skipBlank s with
  | [] => none
  | d :: t => if d = c then some t else none

def hexValue (c : UInt8) : Option Nat :=
  if 48 ≤ c ∧ c ≤ 57 then some (c.toNat - 48)
  else if 65 ≤ c ∧ c ≤ 70 then some (c.toNat - 55)
  else if 97 ≤ c ∧ c ≤ 102 then some (c.toNat - 87)
  else none

/-- The code unit of four hexadecimal digits. -/
def readUnit : List UInt8 → Option (Nat × List UInt8)
  | a :: b :: c :: d :: t => do
    let a ← hexValue a
    let b ← hexValue b
    let c ← hexValue c
    let d ← hexValue d
    return (((a * 16 + b) * 16 + c) * 16 + d, t)
  | _ => none

def utf8 (n : Nat) : List UInt8 :=
  if n < 0x80 then [n.toUInt8]
  else if n < 0x800 then [(0xC0 + n / 64).toUInt8, (0x80 + n % 64).toUInt8]
  else if n < 0x10000 then
    [(0xE0 + n / 4096).toUInt8, (0x80 + n / 64 % 64).toUInt8, (0x80 + n % 64).toUInt8]
  else
    [(0xF0 + n / 262144).toUInt8, (0x80 + n / 4096 % 64).toUInt8, (0x80 + n / 64 % 64).toUInt8,
      (0x80 + n % 64).toUInt8]

def shortEscape (e : UInt8) : Option UInt8 :=
  if e = 34 ∨ e = 92 ∨ e = 47 then some e
  else if e = 98 then some 8
  else if e = 102 then some 12
  else if e = 110 then some 10
  else if e = 114 then some 13
  else if e = 116 then some 9
  else none

/-- The second half of a surrogate pair; a lone surrogate stands for nothing. -/
def readSurrogate (high : Nat) : List UInt8 → Option (List UInt8 × List UInt8)
  | b :: u :: t => do
    let (low, t) ← readUnit t
    if b = 92 ∧ u = 117 ∧ high < 0xDC00 ∧ 0xDC00 ≤ low ∧ low < 0xE000 then
      return (utf8 (0x10000 + (high - 0xD800) * 1024 + (low - 0xDC00)), t)
    else none
  | _ => none

/-- What follows a backslash, as the bytes it stands for. -/
def readEscape : List UInt8 → Option (List UInt8 × List UInt8)
  | [] => none
  | e :: t =>
    if e = 117 then do
      let (unit, t) ← readUnit t
      if 0xD800 ≤ unit ∧ unit < 0xE000 then readSurrogate unit t else return (utf8 unit, t)
    else (shortEscape e).map fun c => ([c], t)

/-- A string from behind its opening quote to behind its closing one. -/
def readString : Nat → List UInt8 → Option (List UInt8 × List UInt8)
  | 0, _ => none
  | _ + 1, [] => none
  | fuel + 1, c :: t =>
    if c = 34 then some ([], t)
    else if c = 92 then do
      let (bytes, t) ← readEscape t
      let (s, t) ← readString fuel t
      return (bytes ++ s, t)
    else if c < 32 then none
    else do
      let (s, t) ← readString fuel t
      return (c :: s, t)

def isDigit (c : UInt8) : Bool := 48 ≤ c && c ≤ 57

def skipDigits (s : List UInt8) : Option (List UInt8) :=
  match s with
  | [] => none
  | c :: t => if isDigit c then some (t.dropWhile isDigit) else none

def skipInteger : List UInt8 → Option (List UInt8)
  | [] => none
  | c :: t => if c = 48 then some t else skipDigits (c :: t)

def skipFraction : List UInt8 → Option (List UInt8)
  | [] => some []
  | c :: t => if c = 46 then skipDigits t else some (c :: t)

def skipSign : List UInt8 → List UInt8
  | [] => []
  | c :: t => if c = 43 ∨ c = 45 then t else c :: t

def skipExponent : List UInt8 → Option (List UInt8)
  | [] => some []
  | c :: t => if c = 69 ∨ c = 101 then skipDigits (skipSign t) else some (c :: t)

/-- What follows a number, which may begin with a minus sign. -/
def skipNumber (s : List UInt8) : Option (List UInt8) := do
  let t ← skipInteger (if s.head? = some 45 then s.drop 1 else s)
  let t ← skipFraction t
  skipExponent t

/-- A value that is not a string, an array or an object. -/
def readScalar (s : List UInt8) : Option (Value × List UInt8) :=
  if [110, 117, 108, 108] <+: s then some (.null, s.drop 4)
  else if [116, 114, 117, 101] <+: s then some (.boolean true, s.drop 4)
  else if [102, 97, 108, 115, 101] <+: s then some (.boolean false, s.drop 5)
  else (skipNumber s).map fun t => (.number (s.take (s.length - t.length)), t)

mutual

def readValue : Nat → List UInt8 → Option (Value × List UInt8)
  | 0, _ => none
  | fuel + 1, s =>
    match skipBlank s with
    | [] => none
    | c :: t =>
      if c = 34 then (readString (t.length + 1) t).map fun r => (.string r.1, r.2)
      else if c = 91 then
        match expect 93 t with
        | some t => some (.array [], t)
        | none => (readItems fuel t).map fun r => (.array r.1, r.2)
      else if c = 123 then
        match expect 125 t with
        | some t => some (.object [], t)
        | none => (readMembers fuel t).map fun r => (.object r.1, r.2)
      else readScalar (c :: t)

/-- The items of an array up to behind its bracket. -/
def readItems : Nat → List UInt8 → Option (List Value × List UInt8)
  | 0, _ => none
  | fuel + 1, s => do
    let (v, t) ← readValue fuel s
    match expect 93 t with
    | some t => return ([v], t)
    | none => do
      let t ← expect 44 t
      let (vs, t) ← readItems fuel t
      return (v :: vs, t)

/-- The members of an object up to behind its brace. -/
def readMembers : Nat → List UInt8 → Option (List (List UInt8 × Value) × List UInt8)
  | 0, _ => none
  | fuel + 1, s => do
    let t ← expect 34 s
    let (k, t) ← readString (t.length + 1) t
    let t ← expect 58 t
    let (v, t) ← readValue fuel t
    match expect 125 t with
    | some t => return ([(k, v)], t)
    | none => do
      let t ← expect 44 t
      let (ms, t) ← readMembers fuel t
      return ((k, v) :: ms, t)

end

/-- The value of a text that is one value and blanks. -/
def decode (s : List UInt8) : Option Value :=
  match readValue (s.length + 1) s with
  | some (v, rest) => if skipBlank rest = [] then some v else none
  | none => none

variable {s t rest bytes : List UInt8} {v : Value} {fuel : Nat}

/-- A byte that a string can hold as it is. -/
def Plain (c : UInt8) : Prop := c ≠ 34 ∧ c ≠ 92 ∧ 32 ≤ c

instance (c : UInt8) : Decidable (Plain c) := inferInstanceAs (Decidable (_ ∧ _))

/-- The text between the quotes of a string. -/
def Spells (t s : List UInt8) : Prop :=
  ∀ fuel rest, t.length < fuel → readString fuel (t ++ 34 :: rest) = some (s, rest)

/-- The text of a value, whatever follows it. -/
def Text (t : List UInt8) (v : Value) : Prop :=
  ∀ fuel rest, t.length < fuel → readValue fuel (t ++ rest) = some (v, rest)

@[simp] theorem expect_cons {c : UInt8} (h : skipBlank (c :: t) = c :: t) :
    expect c (c :: t) = some t := by
  simp [expect, h]

theorem spells_nil : Spells [] [] := by
  intro fuel rest hfuel
  cases fuel with
  | zero => cases hfuel
  | succ fuel => rfl

theorem spells_plain {c : UInt8} (hc : Plain c) (h : Spells t s) : Spells (c :: t) (c :: s) := by
  obtain ⟨hquote, hslash, hcontrol⟩ := hc
  intro fuel rest hfuel
  cases fuel with
  | zero => cases hfuel
  | succ fuel =>
    have ht := h fuel rest (by simpa using hfuel)
    have hlow : ¬ c < 32 := by simpa using hcontrol
    rw [List.cons_append, readString, if_neg hquote, if_neg hslash, if_neg hlow, ht]
    rfl

theorem spells_escape {e : List UInt8} (he : ∀ rest, readEscape (e ++ rest) = some (bytes, rest))
    (h : Spells t s) : Spells (92 :: (e ++ t)) (bytes ++ s) := by
  intro fuel rest hfuel
  cases fuel with
  | zero => cases hfuel
  | succ fuel =>
    have hlen : t.length < fuel := by
      simp only [List.length_cons, List.length_append] at hfuel
      omega
    have ht := h fuel rest hlen
    rw [List.cons_append, readString, if_neg (by decide), if_pos rfl, List.append_assoc, he]
    simp only [Option.bind_eq_bind, Option.bind_some, ht]
    rfl

/-- A string without special bytes spells itself. -/
theorem spells_self (h : ∀ c ∈ s, Plain c) : Spells s s := by
  induction s with
  | nil => exact spells_nil
  | cons c s ih =>
    rw [List.forall_mem_cons] at h
    exact spells_plain h.1 (ih h.2)

theorem text_string (h : Spells t s) : Text (34 :: (t ++ [34])) (.string s) := by
  intro fuel rest hfuel
  cases fuel with
  | zero => cases hfuel
  | succ fuel =>
    have hblank : ∀ t : List UInt8, skipBlank (34 :: t) = 34 :: t := fun t => rfl
    have ht := h ((t ++ 34 :: rest).length + 1) rest (by simp)
    have hshape : 34 :: (t ++ [34]) ++ rest = 34 :: (t ++ 34 :: rest) := by simp
    rw [hshape, readValue, hblank]
    simp only [if_true, ht]
    rfl

/-- A member as it is written without blanks. -/
def memberText (keyText valueText : List UInt8) : List UInt8 :=
  34 :: (keyText ++ [34, 58] ++ valueText)

section members
variable {ι : Type} {l : List ι} {keyText key valueText : ι → List UInt8} {value : ι → Value}

/-- The first member of an object is read, and then what is behind it. -/
theorem readMembers_member {kt k vt tail : List UInt8} (hkey : Spells kt k) (hvalue : Text vt v)
    (hfuel : vt.length < fuel) :
    (∀ u, expect 125 tail = some u →
      readMembers (fuel + 1) (memberText kt vt ++ tail) = some ([(k, v)], u)) ∧
    ∀ u, expect 125 tail = none → expect 44 tail = some u →
      readMembers (fuel + 1) (memberText kt vt ++ tail) =
        (readMembers fuel u).map fun r => ((k, v) :: r.1, r.2) := by
  have hshape : memberText kt vt ++ tail = 34 :: (kt ++ 34 :: 58 :: (vt ++ tail)) := by
    simp [memberText]
  have hopen : expect 34 (34 :: (kt ++ 34 :: 58 :: (vt ++ tail))) =
      some (kt ++ 34 :: 58 :: (vt ++ tail)) := rfl
  have hcolon : expect 58 (58 :: (vt ++ tail)) = some (vt ++ tail) := rfl
  have hstring := hkey ((kt ++ 34 :: 58 :: (vt ++ tail)).length + 1) (58 :: (vt ++ tail))
    (by simp)
  rw [hshape, readMembers, hopen]
  simp only [Option.bind_eq_bind, Option.bind_some, hstring, hcolon, hvalue fuel tail hfuel]
  constructor
  · intro u hend
    rw [hend]
    rfl
  · intro u hend hcomma
    rw [hend, hcomma]
    cases hmembers : readMembers fuel u with
    | none => simp [hmembers]
    | some r => simp [hmembers]

theorem readMembers_text (hne : l ≠ [])
    (h : ∀ i ∈ l, Spells (keyText i) (key i) ∧ Text (valueText i) (value i)) (fuel : Nat)
    (rest : List UInt8)
    (hfuel : ([44].intercalate (l.map fun i => memberText (keyText i) (valueText i))).length <
      fuel) :
    readMembers fuel ([44].intercalate (l.map fun i => memberText (keyText i) (valueText i)) ++
      125 :: rest) = some (l.map fun i => (key i, value i), rest) := by
  induction l generalizing fuel with
  | nil => exact (hne rfl).elim
  | cons i l ih =>
    rw [List.forall_mem_cons] at h
    obtain ⟨⟨hkey, hvalue⟩, hl⟩ := h
    cases fuel with
    | zero => cases hfuel
    | succ fuel =>
      cases l with
      | nil =>
        simp only [List.map_cons, List.map_nil, List.intercalate_singleton] at hfuel ⊢
        have hlen : (valueText i).length < fuel := by
          simp only [memberText, List.length_cons, List.length_append] at hfuel
          omega
        exact (readMembers_member hkey hvalue hlen).1 rest rfl
      | cons j l =>
        have hsplit : [44].intercalate ((i :: j :: l).map fun i =>
              memberText (keyText i) (valueText i)) =
            memberText (keyText i) (valueText i) ++ [44] ++
              [44].intercalate ((j :: l).map fun i => memberText (keyText i) (valueText i)) := by
          rw [List.map_cons, List.map_cons, List.intercalate_cons_cons]
        rw [hsplit] at hfuel ⊢
        simp only [memberText, List.length_cons, List.length_append, List.length_nil] at hfuel
        have hrest := ih (List.cons_ne_nil j l) hl fuel (by simp only [memberText]; omega)
        rw [List.append_assoc, List.append_assoc,
          (readMembers_member hkey hvalue (by omega)).2
            ([44].intercalate ((j :: l).map fun i => memberText (keyText i) (valueText i)) ++
              125 :: rest) rfl rfl, hrest]
        rfl

/-- An object with its members as they are written without blanks. -/
theorem text_object (hne : l ≠ [])
    (h : ∀ i ∈ l, Spells (keyText i) (key i) ∧ Text (valueText i) (value i)) :
    Text (123 :: ([44].intercalate (l.map fun i => memberText (keyText i) (valueText i)) ++ [125]))
      (.object (l.map fun i => (key i, value i))) := by
  intro fuel rest hfuel
  cases fuel with
  | zero => cases hfuel
  | succ fuel =>
    have hmembers := readMembers_text hne h fuel rest (by
      simp only [List.length_cons, List.length_append, List.length_nil] at hfuel
      omega)
    obtain ⟨i, l, rfl⟩ := List.exists_cons_of_ne_nil hne
    have hquote : ∃ t, [44].intercalate ((i :: l).map fun i => memberText (keyText i)
        (valueText i)) = 34 :: t := by
      cases l with
      | nil => exact ⟨_, by simp [memberText]; rfl⟩
      | cons j l => exact ⟨_, by rw [List.map_cons, List.map_cons, List.intercalate_cons_cons]; rfl⟩
    obtain ⟨t, ht⟩ := hquote
    rw [ht] at hmembers ⊢
    have hshape : 123 :: (34 :: t ++ [125]) ++ rest = 123 :: (34 :: t ++ 125 :: rest) := by simp
    have hblank : ∀ t : List UInt8, skipBlank (123 :: t) = 123 :: t := fun t => rfl
    have hend : ∀ t : List UInt8, expect 125 (34 :: t ++ 125 :: rest) = none := fun t => rfl
    have hbrace : (123 : UInt8) ≠ 34 ∧ (123 : UInt8) ≠ 91 := by decide
    rw [hshape, readValue, hblank]
    simp only [hbrace.1, hbrace.2, if_false, if_true, hend, hmembers]
    rfl

/-- Four bytes of an object's text go with each member, one with the object. -/
theorem text_object_length (hne : l ≠ []) :
    (123 :: ([44].intercalate (l.map fun i => memberText (keyText i) (valueText i)) ++
      [125])).length = (l.map fun i => (keyText i).length + (valueText i).length + 4).sum + 1 := by
  induction l with
  | nil => exact (hne rfl).elim
  | cons i l ih =>
    cases l with
    | nil =>
      simp only [memberText, List.map_cons, List.map_nil, List.intercalate_singleton,
        List.length_cons, List.length_append, List.length_nil, List.sum_cons, List.sum_nil]
      omega
    | cons j l =>
      have hrest := ih (List.cons_ne_nil j l)
      rw [List.map_cons, List.map_cons, List.intercalate_cons_cons]
      rw [List.map_cons] at hrest
      simp only [memberText, List.map_cons, List.length_cons, List.length_append, List.length_nil,
        List.sum_cons] at hrest ⊢
      omega

end members

/-- A text that can be read wherever it stands is decoded to its value. -/
theorem decode_text (h : Text t v) : decode t = some v := by
  have hread := h (t.length + 1) [] (Nat.lt_succ_self _)
  rw [List.append_nil] at hread
  rw [decode, hread]
  rfl

/-- The least text of a byte inside a string. -/
def byteWeight (c : UInt8) : Nat := if Plain c then 1 else 2

def stringWeight (s : List UInt8) : Nat := (s.map byteWeight).sum

mutual

/-- A lower bound for the length of the texts of a value. -/
def Value.weight : Value → Nat
  | .null | .boolean _ | .number _ => 1
  | .string s => stringWeight s + 2
  | .array items => itemsWeight items + 1
  | .object members => membersWeight members + 1

def itemsWeight : List Value → Nat
  | [] => 0
  | v :: vs => v.weight + 1 + itemsWeight vs

def membersWeight : List (List UInt8 × Value) → Nat
  | [] => 0
  | (k, v) :: ms => stringWeight k + v.weight + 4 + membersWeight ms

end

theorem stringWeight_le (s : List UInt8) : stringWeight s ≤ 2 * s.length := by
  induction s with
  | nil => exact le_rfl
  | cons c s ih =>
    have hc : byteWeight c ≤ 2 := by
      unfold byteWeight
      split <;> omega
    simp only [stringWeight, List.map_cons, List.sum_cons, List.length_cons] at ih ⊢
    omega

theorem byteWeight_pos (c : UInt8) : 1 ≤ byteWeight c := by
  unfold byteWeight
  split <;> omega

theorem length_le_stringWeight (s : List UInt8) : s.length ≤ stringWeight s := by
  induction s with
  | nil => exact le_rfl
  | cons c s ih =>
    have hc := byteWeight_pos c
    simp only [stringWeight, List.map_cons, List.sum_cons, List.length_cons] at ih ⊢
    omega

/-- Only a string of plain bytes takes no more text than its length. -/
theorem plain_of_stringWeight_le (h : stringWeight s ≤ s.length) : ∀ c ∈ s, Plain c := by
  induction s with
  | nil => exact fun c hc => absurd hc List.not_mem_nil
  | cons c s ih =>
    have hle := length_le_stringWeight s
    have hpos := byteWeight_pos c
    simp only [stringWeight, List.map_cons, List.sum_cons, List.length_cons] at h hle ih
    rw [List.forall_mem_cons]
    refine ⟨?_, ih (by omega)⟩
    by_contra hspecial
    have htwo : byteWeight c = 2 := if_neg hspecial
    omega

theorem stringWeight_append (a b : List UInt8) :
    stringWeight (a ++ b) = stringWeight a + stringWeight b := by
  simp [stringWeight]

theorem skipBlank_length (s : List UInt8) : (skipBlank s).length ≤ s.length :=
  (List.dropWhile_suffix _).length_le

theorem expect_length {c : UInt8} (h : expect c s = some t) : t.length + 1 ≤ s.length := by
  have hle := skipBlank_length s
  unfold expect at h
  split at h
  · cases h
  · rename_i d u heq
    split at h
    · cases h
      rw [heq] at hle
      exact hle
    · cases h

theorem hexValue_lt {c : UInt8} {n : Nat} (h : hexValue c = some n) : n < 16 := by
  have hdigit : ∀ {lo hi : UInt8} {off : Nat}, lo ≤ c ∧ c ≤ hi → hi.toNat < off + 16 →
      some (c.toNat - off) = some n → n < 16 := by
    intro lo hi off hc hoff heq
    cases heq
    have hle := UInt8.le_iff_toNat_le.1 hc.2
    omega
  unfold hexValue at h
  split at h
  · exact hdigit ‹_› (by decide) h
  · split at h
    · exact hdigit ‹_› (by decide) h
    · split at h
      · exact hdigit ‹_› (by decide) h
      · cases h

theorem readUnit_spec {n : Nat} (h : readUnit s = some (n, t)) :
    t.length + 4 = s.length ∧ n < 0x10000 := by
  unfold readUnit at h
  split at h
  · simp only [Option.bind_eq_bind, Option.bind_eq_some_iff] at h
    obtain ⟨a, ha, b, hb, c, hc, d, hd, h⟩ := h
    have hlta := hexValue_lt ha
    have hltb := hexValue_lt hb
    have hltc := hexValue_lt hc
    have hltd := hexValue_lt hd
    cases h
    exact ⟨rfl, by omega⟩
  · cases h

theorem utf8_length (n : Nat) : (utf8 n).length ≤ 4 := by
  unfold utf8
  split
  · simp
  · split
    · simp
    · split <;> simp

theorem utf8_unit_length {n : Nat} (h : n < 0x10000) : (utf8 n).length ≤ 3 := by
  unfold utf8
  simp only [h, if_true]
  split
  · simp
  · split <;> simp

/-- Every byte of an escape takes two bytes of the text, the backslash included. -/
theorem readSurrogate_length {high : Nat} (h : readSurrogate high s = some (bytes, t)) :
    2 * bytes.length + t.length ≤ s.length + 2 := by
  unfold readSurrogate at h
  split at h
  · rename_i b u rest
    simp only [Option.bind_eq_bind, Option.bind_eq_some_iff] at h
    obtain ⟨⟨low, t'⟩, hunit, h⟩ := h
    have hlen := (readUnit_spec hunit).1
    dsimp only at h
    split at h
    · obtain ⟨rfl, rfl⟩ := Prod.mk.inj (Option.some.inj h)
      have hutf := utf8_length (0x10000 + (high - 0xD800) * 1024 + (low - 0xDC00))
      simp only [List.length_cons]
      omega
    · cases h
  · cases h

theorem readEscape_length (h : readEscape s = some (bytes, t)) :
    2 * bytes.length + t.length ≤ s.length + 1 := by
  cases s with
  | nil => cases h
  | cons e s =>
    rw [readEscape] at h
    split at h
    · simp only [Option.bind_eq_bind, Option.bind_eq_some_iff] at h
      obtain ⟨⟨unit, t'⟩, hunit, h⟩ := h
      obtain ⟨hlen, hlt⟩ := readUnit_spec hunit
      dsimp only [List.length_cons] at h ⊢
      split at h
      · have hpair := readSurrogate_length h
        omega
      · cases h
        have hutf := utf8_unit_length hlt
        omega
    · simp only [Option.map_eq_some_iff] at h
      obtain ⟨c, -, h⟩ := h
      cases h
      simp only [List.length_cons, List.length_nil]
      omega

theorem readString_length (h : readString fuel s = some (bytes, rest)) :
    stringWeight bytes + rest.length + 1 ≤ s.length := by
  induction fuel generalizing s bytes with
  | zero => cases h
  | succ fuel ih =>
    cases s with
    | nil => cases h
    | cons c t =>
      rw [readString] at h
      simp only [List.length_cons]
      split at h
      · cases h
        simp [stringWeight]
      · rename_i hquote
        split at h
        · simp only [Option.bind_eq_bind, Option.bind_eq_some_iff] at h
          obtain ⟨⟨e, u⟩, hescape, ⟨s', u'⟩, hrest, h⟩ := h
          dsimp only at hrest h
          cases h
          have hhead := readEscape_length hescape
          have htail := ih hrest
          have hle := stringWeight_le e
          rw [stringWeight_append]
          omega
        · rename_i hslash
          split at h
          · cases h
          · rename_i hlow
            simp only [Option.bind_eq_bind, Option.bind_eq_some_iff] at h
            obtain ⟨⟨s', u'⟩, hrest, h⟩ := h
            dsimp only at h
            cases h
            have htail := ih hrest
            have hplain : Plain c := ⟨hquote, hslash, by simpa using hlow⟩
            simp only [stringWeight, List.map_cons, List.sum_cons, byteWeight, if_pos hplain]
              at htail ⊢
            omega

theorem skipDigits_length (h : skipDigits s = some t) : t.length + 1 ≤ s.length := by
  unfold skipDigits at h
  split at h
  · cases h
  · rename_i c u
    split at h
    · cases h
      exact Nat.succ_le_succ (List.dropWhile_suffix _).length_le
    · cases h

theorem skipInteger_length (h : skipInteger s = some t) : t.length + 1 ≤ s.length := by
  unfold skipInteger at h
  split at h
  · cases h
  · split at h
    · cases h
      exact le_rfl
    · exact skipDigits_length h

theorem skipFraction_length (h : skipFraction s = some t) : t.length ≤ s.length := by
  unfold skipFraction at h
  split at h
  · cases h
    exact le_rfl
  · split at h
    · have hlen := skipDigits_length h
      simp only [List.length_cons]
      omega
    · cases h
      exact le_rfl

theorem skipSign_length (s : List UInt8) : (skipSign s).length ≤ s.length := by
  unfold skipSign
  split
  · exact le_rfl
  · split
    · exact Nat.le_succ _
    · exact le_rfl

theorem skipExponent_length (h : skipExponent s = some t) : t.length ≤ s.length := by
  unfold skipExponent at h
  split at h
  · cases h
    exact le_rfl
  · rename_i c u
    split at h
    · have hlen := skipDigits_length h
      have hsign := skipSign_length u
      simp only [List.length_cons]
      omega
    · cases h
      exact le_rfl

theorem skipNumber_length (h : skipNumber s = some t) : t.length + 1 ≤ s.length := by
  simp only [skipNumber, Option.bind_eq_bind, Option.bind_eq_some_iff] at h
  obtain ⟨u, hint, w, hfrac, hexp⟩ := h
  have h₁ := skipInteger_length hint
  have h₂ := skipFraction_length hfrac
  have h₃ := skipExponent_length hexp
  have hminus : (if s.head? = some 45 then s.drop 1 else s).length ≤ s.length := by
    split
    · simp
    · exact le_rfl
  omega

theorem readScalar_length (h : readScalar s = some (v, rest)) :
    v.weight + rest.length ≤ s.length := by
  have hword : ∀ {word : List UInt8} {w : Value}, word <+: s → 0 < word.length → w.weight = 1 →
      some (w, s.drop word.length) = some (v, rest) → v.weight + rest.length ≤ s.length := by
    intro word w hp hpos hw heq
    cases heq
    have hlen := hp.length_le
    rw [hw, List.length_drop]
    omega
  unfold readScalar at h
  split at h
  · exact hword ‹_› (by decide) rfl h
  · split at h
    · exact hword ‹_› (by decide) rfl h
    · split at h
      · exact hword ‹_› (by decide) rfl h
      · simp only [Option.map_eq_some_iff] at h
        obtain ⟨t, hnum, h⟩ := h
        cases h
        have hlen := skipNumber_length hnum
        simp only [Value.weight]
        omega

/-- Reading takes as many bytes as its result weighs. -/
theorem read_length (fuel : Nat) :
    (∀ {s v rest}, readValue fuel s = some (v, rest) → v.weight + rest.length ≤ s.length) ∧
    (∀ {s vs rest}, readItems fuel s = some (vs, rest) →
      itemsWeight vs + rest.length ≤ s.length) ∧
    ∀ {s ms rest}, readMembers fuel s = some (ms, rest) →
      membersWeight ms + rest.length ≤ s.length := by
  induction fuel with
  | zero =>
    refine ⟨?_, ?_, ?_⟩ <;> intro s v rest h <;> simp [readValue, readItems, readMembers] at h
  | succ fuel ih =>
    obtain ⟨hvalue, hitems, hmembers⟩ := ih
    refine ⟨?_, ?_, ?_⟩
    · intro s v rest h
      have hblank := skipBlank_length s
      rw [readValue] at h
      split at h
      · cases h
      · rename_i c t heq
        rw [heq, List.length_cons] at hblank
        split at h
        · simp only [Option.map_eq_some_iff] at h
          obtain ⟨⟨str, u⟩, hstring, h⟩ := h
          cases h
          have hlen := readString_length hstring
          simp only [Value.weight]
          omega
        · split at h
          · split at h
            · rename_i u hend
              cases h
              have hlen := expect_length hend
              simp only [Value.weight, itemsWeight]
              omega
            · simp only [Option.map_eq_some_iff] at h
              obtain ⟨⟨vs, u⟩, hread, h⟩ := h
              cases h
              have hlen := hitems hread
              simp only [Value.weight]
              omega
          · split at h
            · split at h
              · rename_i u hend
                cases h
                have hlen := expect_length hend
                simp only [Value.weight, membersWeight]
                omega
              · simp only [Option.map_eq_some_iff] at h
                obtain ⟨⟨ms, u⟩, hread, h⟩ := h
                cases h
                have hlen := hmembers hread
                simp only [Value.weight]
                omega
            · have hlen := readScalar_length h
              simp only [List.length_cons] at hlen
              omega
    · intro s vs rest h
      simp only [readItems, Option.bind_eq_bind, Option.bind_eq_some_iff] at h
      obtain ⟨⟨v, t⟩, hread, h⟩ := h
      dsimp only at h
      have hhead := hvalue hread
      split at h
      · rename_i u hend
        cases h
        have hlen := expect_length hend
        simp only [itemsWeight]
        omega
      · simp only [Option.bind_eq_some_iff] at h
        obtain ⟨u, hcomma, ⟨ws, w⟩, htail, h⟩ := h
        dsimp only at h
        cases h
        have hlen := expect_length hcomma
        have hrest := hitems htail
        simp only [itemsWeight]
        omega
    · intro s ms rest h
      simp only [readMembers, Option.bind_eq_bind, Option.bind_eq_some_iff] at h
      obtain ⟨a, hquote, ⟨k, b⟩, hkey, c, hcolon, ⟨v, t⟩, hread, h⟩ := h
      dsimp only at hcolon h
      have hlen₁ := expect_length hquote
      have hlen₂ := readString_length hkey
      have hlen₃ := expect_length hcolon
      have hhead := hvalue hread
      split at h
      · rename_i u hend
        cases h
        have hlen := expect_length hend
        simp only [membersWeight]
        omega
      · simp only [Option.bind_eq_some_iff] at h
        obtain ⟨u, hcomma, ⟨ns, w⟩, htail, h⟩ := h
        dsimp only at h
        cases h
        have hlen := expect_length hcomma
        have hrest := hmembers htail
        simp only [membersWeight]
        omega

/-- No text is shorter than the weight of the value it is decoded to. -/
theorem weight_le_of_decode (h : decode s = some v) : v.weight ≤ s.length := by
  unfold decode at h
  split at h
  · rename_i w rest hread
    split at h
    · cases h
      have hlen := (read_length _).1 hread
      omega
    · cases h
  · cases h

theorem membersWeight_eq (ms : List (List UInt8 × Value)) :
    membersWeight ms = (ms.map fun m => stringWeight m.1 + m.2.weight + 4).sum := by
  induction ms with
  | nil => rfl
  | cons m ms ih =>
    obtain ⟨k, v⟩ := m
    rw [membersWeight, ih, List.map_cons, List.sum_cons]

/-- The only value that an object has under a key. -/
def Maps (ms : List (List UInt8 × Value)) (k : List UInt8) (v : Value) : Prop :=
  ms.filter (fun m => m.1 = k) = [(k, v)]

theorem Maps.mem {ms : List (List UInt8 × Value)} {k : List UInt8} (h : Maps ms k v) :
    (k, v) ∈ ms := by
  have hmem : (k, v) ∈ ms.filter (fun m => m.1 = k) := by
    rw [h]
    exact List.mem_singleton_self _
  exact (List.mem_filter.mp hmem).1

/-- An object written with one member for each key maps each of its keys. -/
theorem maps_of_mem {k : List UInt8} {ks : List (List UInt8)} {value : List UInt8 → Value}
    (hks : ks.Nodup) (hk : k ∈ ks) : Maps (ks.map fun k => (k, value k)) k (value k) := by
  have hone : ks.filter (fun k' => k' = k) = [k] := by
    rw [List.filter_eq, List.count_eq_one_of_mem hks hk]
    rfl
  rw [Maps, List.filter_map]
  exact congrArg _ hone

/-- An object weighs at least what its members under different keys do. -/
theorem weight_of_maps {ms l : List (List UInt8 × Value)} (hkeys : (l.map Prod.fst).Nodup)
    (h : ∀ m ∈ l, Maps ms m.1 m.2) :
    (l.map fun m => stringWeight m.1 + m.2.weight + 4).sum ≤ membersWeight ms := by
  obtain ⟨l', hperm, hsublist⟩ := hkeys.of_map.subperm fun m hm => (h m hm).mem
  have hsum := (hperm.map fun m => stringWeight m.1 + m.2.weight + 4).sum_eq
  have hle := (hsublist.map fun m => stringWeight m.1 + m.2.weight + 4).sum_le_sum
    fun _ _ => Nat.zero_le _
  rw [membersWeight_eq, ← hsum]
  exact hle

end JsonText
