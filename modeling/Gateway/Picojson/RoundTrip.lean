import Mathlib
import Gateway.Picojson.Values

/-! The picojson parser reads back what the serializer writes. -/
namespace Gateway.Picojson

open OrderedMap Results

variable {fuel depths : Nat} {s t out rest : Bytes} {c ch : UInt8} {v : Json} {items : List Json}
  {members : List (Bytes × Json)}

theorem quadhexDigit_hexDigit : ∀ c : UInt8, c < 0x20 ∨ c = 0x7f →
    quadhexDigit (hexDigit (c / 16)) = .ok (c.toNat / 16) ∧
      quadhexDigit (hexDigit (c % 16)) = .ok (c.toNat % 16) := by
  decide +kernel

/-- The long escape stands for its control character. -/
theorem parseCodepoint_control (h : c < 0x20 ∨ c = 0x7f) (t : Bytes) :
    parseCodepoint (48 :: 48 :: hexDigit (c / 16) :: hexDigit (c % 16) :: t) = .ok ([c], t) := by
  obtain ⟨hhigh, hlow⟩ := quadhexDigit_hexDigit c h
  have hzero : quadhexDigit 48 = .ok 0 := by decide
  have hsmall : c.toNat < 0x80 := by
    rcases h with h | rfl
    · have := UInt8.lt_iff_toNat_lt.mp h
      simp at this
      omega
    · decide
  have hunit : parseQuadhex (48 :: 48 :: hexDigit (c / 16) :: hexDigit (c % 16) :: t) =
      .ok (c.toNat, t) := by
    simp only [parseQuadhex, hzero, hhigh, hlow, bind, Except.bind, pure, Except.pure]
    congr 2
    omega
  have hpush : pushCodepoint c.toNat = [c] := by
    rw [pushCodepoint, if_pos hsmall]
    simp
  rw [parseCodepoint, hunit]
  simp only [bind, Except.bind]
  rw [if_neg (by omega), hpush]
  rfl

theorem stringLoop_short (h : shortEscape ch = some c) :
    stringLoop (fuel + 1) out (92 :: ch :: t) = stringLoop fuel (out ++ [c]) t := by
  simp [stringLoop, h]

theorem stringLoop_control (h : c < 0x20 ∨ c = 0x7f) :
    stringLoop (fuel + 1) out
      (92 :: 117 :: 48 :: 48 :: hexDigit (c / 16) :: hexDigit (c % 16) :: t) =
        stringLoop fuel (out ++ [c]) t := by
  have hu : shortEscape 117 = none := by decide
  simp [stringLoop, hu, parseCodepoint_control h, bind, Except.bind]

theorem stringLoop_plain (hcontrol : ¬ c < 0x20) (hquote : c ≠ 34) (hslash : c ≠ 92) :
    stringLoop (fuel + 1) out (c :: t) = stringLoop fuel (out ++ [c]) t := by
  rw [stringLoop.eq_def]
  simp only
  rw [if_neg hcontrol, if_neg hquote, if_neg hslash]

/-- One turn of the loop takes up what is written for one character. -/
theorem stringLoop_serializeStrChar (c : UInt8) :
    stringLoop (fuel + 1) out (serializeStrChar c ++ t) = stringLoop fuel (out ++ [c]) t := by
  unfold serializeStrChar
  split
  · subst c
    exact stringLoop_short (by decide)
  rename_i hquote
  split
  · subst c
    exact stringLoop_short (by decide)
  rename_i hslash
  split
  · subst c
    exact stringLoop_short (by decide)
  split
  · subst c
    exact stringLoop_short (by decide)
  split
  · subst c
    exact stringLoop_short (by decide)
  split
  · subst c
    exact stringLoop_short (by decide)
  split
  · subst c
    exact stringLoop_short (by decide)
  split
  · subst c
    exact stringLoop_short (by decide)
  split
  · rename_i hcontrol
    exact stringLoop_control hcontrol
  · rename_i hcontrol
    exact stringLoop_plain (fun h => hcontrol (.inl h)) hquote hslash

theorem stringLoop_serialized (h : s.length < fuel) :
    stringLoop fuel out (s.flatMap serializeStrChar ++ 34 :: rest) = .ok (out ++ s, rest) := by
  induction s generalizing fuel out with
  | nil =>
    obtain ⟨fuel, rfl⟩ := Nat.exists_eq_add_one_of_ne_zero (Nat.ne_of_gt h)
    rw [stringLoop.eq_def]
    simp
  | cons c s ih =>
    obtain ⟨fuel, rfl⟩ := Nat.exists_eq_add_one_of_ne_zero (Nat.ne_zero_of_lt h)
    rw [List.flatMap_cons, List.append_assoc, stringLoop_serializeStrChar, ih (by simpa using h)]
    simp

theorem serializeStrChar_ne_nil (c : UInt8) : serializeStrChar c ≠ [] := by
  unfold serializeStrChar
  repeat' split
  all_goals simp [ascii]

theorem length_le_flatMap (s : Bytes) : s.length ≤ (s.flatMap serializeStrChar).length := by
  induction s with
  | nil => simp
  | cons c s ih =>
    have hpos := List.length_pos_iff.mpr (serializeStrChar_ne_nil c)
    simp only [List.flatMap_cons, List.length_append, List.length_cons]
    omega

/-- A string reads back from behind its opening quote. -/
theorem parseString_serialized (s rest : Bytes) :
    parseString (s.flatMap serializeStrChar ++ 34 :: rest) = .ok (s, rest) := by
  have hlen := length_le_flatMap s
  rw [parseString, stringLoop_serialized (by simp only [List.length_append]; omega),
    List.nil_append]

theorem isNumberChar_of_digit (h : isDigit c = true) : isNumberChar c = true := by
  simp [isNumberChar, h]

theorem int64Text_chars (n : Int) : ∀ c ∈ int64Text n, isNumberChar c = true := by
  have hdigits : ∀ c ∈ toDecimal n.natAbs, isNumberChar c = true :=
    fun c hc => isNumberChar_of_digit (digit_of_mem_toDecimal hc)
  unfold int64Text
  split
  · exact List.forall_mem_cons.mpr ⟨by decide, hdigits⟩
  · exact hdigits

/-- What is written for an integer begins with a minus sign or a digit. -/
theorem int64Text_head (n : Int) :
    ∃ c t, int64Text n = c :: t ∧ (isDigit c = true ∨ c = 45) := by
  unfold int64Text
  split
  · exact ⟨45, _, rfl, .inr rfl⟩
  · obtain ⟨d, ds, hds⟩ := List.exists_cons_of_ne_nil (toDecimal_ne_nil n.natAbs)
    exact ⟨d, ds, hds, .inl (digit_of_mem_toDecimal (hds ▸ List.mem_cons_self))⟩

theorem wholeInt64_int64Text {n : Int} (hlo : -2 ^ 63 ≤ n) (hhi : n < 2 ^ 63) :
    wholeInt64 (int64Text n) = some n := by
  have hdigits : (toDecimal n.natAbs).all isDigit = true :=
    List.all_eq_true.mpr fun c hc => digit_of_mem_toDecimal hc
  have hne := toDecimal_ne_nil n.natAbs
  by_cases hneg : n < 0
  · have hread : readSign (45 :: toDecimal n.natAbs) = (true, toDecimal n.natAbs) := rfl
    have habs : -(n.natAbs : Int) = n := by omega
    rw [int64Text, if_pos hneg, wholeInt64, hread]
    simp only [if_true, decimal_toDecimal, habs]
    rw [if_pos ⟨hne, hdigits, hlo, hhi⟩]
  · obtain ⟨d, ds, hds⟩ := List.exists_cons_of_ne_nil hne
    have hdig : isDigit d = true := digit_of_mem_toDecimal (hds ▸ List.mem_cons_self)
    have hread : readSign (toDecimal n.natAbs) = (false, toDecimal n.natAbs) := by
      rw [hds, readSign_of_digit hdig]
    have habs : (n.natAbs : Int) = n := by omega
    rw [int64Text, if_neg hneg, wholeInt64, hread]
    simp only [Bool.false_eq_true, if_false, decimal_toDecimal, habs]
    rw [if_pos ⟨hne, hdigits, hlo, hhi⟩]

/-- None of the characters that a number begins with is a blank or begins another value. -/
theorem numberHead_apart (h : isDigit c = true ∨ c = 45) : isWs c = false ∧ c ≠ 110 ∧ c ≠ 102 ∧
    c ≠ 116 ∧ c ≠ 34 ∧ c ≠ 91 ∧ c ≠ 123 := by
  have hrange : 45 ≤ c ∧ c ≤ 57 := by
    rcases h with h | rfl
    · simp only [isDigit, Bool.and_eq_true, decide_eq_true_eq] at h
      exact ⟨UInt8.le_trans (by decide) h.1, h.2⟩
    · decide
  obtain ⟨hlo, hhi⟩ := hrange
  refine ⟨?_, ?_, ?_, ?_, ?_, ?_, ?_⟩
  · simp only [isWs, Bool.or_eq_false_iff, beq_eq_false_iff_ne]
    refine ⟨⟨⟨?_, ?_⟩, ?_⟩, ?_⟩ <;> rintro rfl <;> exact absurd hlo (by decide)
  all_goals
    rintro rfl
    revert hlo hhi
    decide

@[simp] theorem skipWs_cons_of_not_ws (h : isWs c = false) : skipWs (c :: t) = c :: t := by
  simp [skipWs, h]

@[simp] theorem expect_self (h : isWs c = false) : expect c (c :: t) = (true, t) := by
  simp [expect, h]

theorem expect_other (h : isWs ch = false) (hne : ch ≠ c) :
    expect c (ch :: t) = (false, ch :: t) := by
  simp [expect, h, hne]

/-- What is left to read does not go on with a number. -/
def NoNumber (rest : Bytes) : Prop := ∀ c ∈ rest.head?, isNumberChar c = false

theorem takeWhile_number {text : Bytes} (h : ∀ c ∈ text, isNumberChar c = true)
    (hrest : NoNumber rest) : (text ++ rest).takeWhile isNumberChar = text ∧
      (text ++ rest).dropWhile isNumberChar = rest := by
  have hall : ∀ c ∈ text, isNumberChar c = true := h
  rw [List.takeWhile_append_of_pos hall, List.dropWhile_append_of_pos hall]
  cases rest with
  | nil => simp
  | cons c t =>
    have hc := hrest c rfl
    simp [hc]

/-- The text of a value reads back where `depths` are left, whatever follows it. -/
def ReadsBack (depths : Nat) (v : Json) : Prop :=
  ∀ {text fuel rest}, serialize v = some text → 2 * text.length + 1 ≤ fuel → NoNumber rest →
    parseValue fuel depths (text ++ rest) = .ok (v, rest)

theorem readsBack_int64 {n : Int} (hlo : -2 ^ 63 ≤ n) (hhi : n < 2 ^ 63) :
    ReadsBack depths (.int64 n) := by
  intro text fuel rest htext hfuel hrest
  obtain ⟨fuel, rfl⟩ := Nat.exists_eq_add_of_le hfuel
  rw [Nat.add_comm, ← Nat.add_assoc]
  obtain rfl := Option.some.inj htext
  obtain ⟨htake, hdrop⟩ := takeWhile_number (int64Text_chars n) hrest
  obtain ⟨c, t, hcons, hhead⟩ := int64Text_head n
  obtain ⟨hws, h1, h2, h3, h4, h5, h6⟩ := numberHead_apart hhead
  have hnum : (isDigit c || c == 45) = true := by
    simpa only [Bool.or_eq_true, beq_iff_eq] using hhead
  have hvalue : numberValue (int64Text n) = .ok (.int64 n) := by
    rw [numberValue, wholeInt64_int64Text hlo hhi]
  rw [hcons, List.cons_append] at htake hdrop ⊢
  rw [parseValue, skipWs_cons_of_not_ws hws]
  simp only [h1, h2, h3, h4, h5, h6, if_false, hnum, if_true, htake, hdrop]
  rw [← hcons, hvalue]
  rfl

theorem serialize_head {text : Bytes} (h : serialize v = some text) :
    ∃ c t, text = c :: t ∧ isWs c = false ∧ c ≠ 93 := by
  cases v with
  | null =>
    cases h
    exact ⟨110, _, rfl, by decide, by decide⟩
  | boolean b =>
    cases b with
    | false =>
      cases h
      exact ⟨102, _, rfl, by decide, by decide⟩
    | true =>
      cases h
      exact ⟨116, _, rfl, by decide, by decide⟩
  | int64 n =>
    cases h
    obtain ⟨c, t, hcons, hhead⟩ := int64Text_head n
    refine ⟨c, t, hcons, (numberHead_apart hhead).1, ?_⟩
    rintro rfl
    revert hhead
    decide
  | number => cases h
  | string s =>
    cases h
    exact ⟨34, _, rfl, by decide, by decide⟩
  | array items =>
    obtain ⟨ts, -, hts⟩ := Option.bind_eq_some_iff.mp h
    cases hts
    exact ⟨91, _, rfl, by decide, by decide⟩
  | object members =>
    obtain ⟨ts, -, hts⟩ := Option.bind_eq_some_iff.mp h
    cases hts
    exact ⟨123, _, rfl, by decide, by decide⟩

theorem noNumber_cons (h : isNumberChar c = false) : NoNumber (c :: t) := by
  simpa [NoNumber] using h

theorem serializeItems_cons {w : Json} {ts : Bytes}
    (h : serializeItems (v :: w :: items) = some ts) : ∃ tv tw, serialize v = some tv ∧
      serializeItems (w :: items) = some tw ∧ ts = tv ++ 44 :: tw := by
  obtain ⟨tv, hv, h⟩ := Option.bind_eq_some_iff.mp h
  obtain ⟨tw, hw, h⟩ := Option.bind_eq_some_iff.mp h
  cases h
  exact ⟨tv, tw, hv, hw, rfl⟩

/-- The loop over the items takes each of them up to its comma. -/
theorem parseItems_serialized {ts : Bytes} {acc : List Json}
    (ih : ∀ w ∈ v :: items, ReadsBack depths w) (h : serializeItems (v :: items) = some ts)
    (hfuel : 2 * ts.length + 2 ≤ fuel) :
    parseItems fuel depths acc (ts ++ 93 :: rest) = .ok (acc ++ v :: items, rest) := by
  induction items generalizing v ts acc fuel with
  | nil =>
    obtain ⟨fuel, rfl⟩ := Nat.exists_eq_add_of_le hfuel
    have hread : parseValue (2 * ts.length + 1 + fuel) depths (ts ++ 93 :: rest) =
        .ok (v, 93 :: rest) :=
      ih v List.mem_cons_self h (by omega) (noNumber_cons (by decide))
    rw [show 2 * ts.length + 2 + fuel = 2 * ts.length + 1 + fuel + 1 by omega, parseItems, hread]
    simp only [bind, Except.bind]
    rw [expect_other (by decide) (by decide), expect_self (by decide)]
    rfl
  | cons w items ihl =>
    obtain ⟨tv, tw, hv, hw, rfl⟩ := serializeItems_cons h
    simp only [List.length_append, List.length_cons] at hfuel
    obtain ⟨fuel, rfl⟩ := Nat.exists_eq_add_of_le hfuel
    have hread : parseValue (2 * (tv.length + (tw.length + 1)) + 1 + fuel) depths
        (tv ++ 44 :: (tw ++ 93 :: rest)) = .ok (v, 44 :: (tw ++ 93 :: rest)) :=
      ih v List.mem_cons_self hv (by omega) (noNumber_cons (by decide))
    rw [show 2 * (tv.length + (tw.length + 1)) + 2 + fuel =
      2 * (tv.length + (tw.length + 1)) + 1 + fuel + 1 by omega, parseItems, List.append_assoc,
      List.cons_append, hread]
    simp only [bind, Except.bind]
    rw [expect_self (by decide)]
    simp only [if_true]
    rw [ihl (fun x hx => ih x (List.mem_cons_of_mem _ hx)) hw (by omega)]
    simp

theorem serializeMembers_cons {key : Bytes} {m : Bytes × Json} {ts : Bytes}
    (h : serializeMembers ((key, v) :: m :: members) = some ts) : ∃ tv tm, serialize v = some tv ∧
      serializeMembers (m :: members) = some tm ∧
        ts = serializeStr key ++ 58 :: (tv ++ 44 :: tm) := by
  obtain ⟨tv, hv, h⟩ := Option.bind_eq_some_iff.mp h
  obtain ⟨tm, hm, h⟩ := Option.bind_eq_some_iff.mp h
  cases h
  exact ⟨tv, tm, hv, hm, rfl⟩

theorem serializeMembers_single {key : Bytes} {ts : Bytes}
    (h : serializeMembers [(key, v)] = some ts) : ∃ tv, serialize v = some tv ∧
      ts = serializeStr key ++ 58 :: tv := by
  obtain ⟨tv, hv, h⟩ := Option.bind_eq_some_iff.mp h
  cases h
  exact ⟨tv, hv, rfl⟩

theorem serializeStr_append (s t : Bytes) :
    serializeStr s ++ t = 34 :: (s.flatMap serializeStrChar ++ 34 :: t) := by
  simp [serializeStr]

/-- One turn of the loop over the members, up to behind the value. -/
theorem parseMembers_step {key tv : Bytes} {acc : List (Bytes × Json)}
    (hread : parseValue fuel depths (tv ++ rest) = .ok (v, rest)) :
    parseMembers (fuel + 1) depths acc (serializeStr key ++ 58 :: (tv ++ rest)) =
      let (more, t) := expect 44 rest
      if more then parseMembers fuel depths (setMember key v acc) t
      else
        let (stop, t) := expect 125 t
        if stop then return (setMember key v acc, t) else .error .syntaxError := by
  rw [parseMembers, serializeStr_append, expect_self (by decide)]
  simp only [Bool.not_true, Bool.false_eq_true, if_false, parseString_serialized, bind, Except.bind]
  rw [expect_self (by decide)]
  simp only [Bool.not_true, Bool.false_eq_true, if_false, hread, pure, Except.pure]

/-- The members were written in the order of their keys, so each comes behind all before it. -/
theorem parseMembers_serialized {key ts : Bytes} {acc : List (Bytes × Json)}
    (ih : ∀ m ∈ (key, v) :: members, ReadsBack depths m.2)
    (h : serializeMembers ((key, v) :: members) = some ts) (hfuel : 2 * ts.length + 2 ≤ fuel)
    (hkeys : Sorted compare (acc ++ (key, v) :: members)) :
    parseMembers fuel depths acc (ts ++ 125 :: rest) = .ok (acc ++ (key, v) :: members, rest) := by
  have hset : setMember key v acc = acc ++ [(key, v)] :=
    set_last fun a ha => (sorted_append.mp hkeys).2.2 a ha _ List.mem_cons_self
  have hstr : 0 < (serializeStr key).length := by simp [serializeStr]
  induction members generalizing key v ts acc fuel with
  | nil =>
    obtain ⟨tv, hv, rfl⟩ := serializeMembers_single h
    simp only [List.length_append, List.length_cons] at hfuel
    obtain ⟨fuel, rfl⟩ := Nat.exists_eq_add_one_of_ne_zero (show fuel ≠ 0 by omega)
    have hread : parseValue fuel depths (tv ++ 125 :: rest) = .ok (v, 125 :: rest) :=
      ih _ List.mem_cons_self hv (by omega) (noNumber_cons (by decide))
    rw [List.append_assoc, List.cons_append, parseMembers_step hread,
      expect_other (by decide) (by decide)]
    simp only [Bool.false_eq_true, if_false]
    rw [expect_self (by decide), hset]
    rfl
  | cons m members ihl =>
    obtain ⟨tv, tm, hv, hm, rfl⟩ := serializeMembers_cons h
    simp only [List.length_append, List.length_cons] at hfuel
    obtain ⟨fuel, rfl⟩ := Nat.exists_eq_add_one_of_ne_zero (show fuel ≠ 0 by omega)
    have hread : parseValue fuel depths (tv ++ 44 :: (tm ++ 125 :: rest)) =
        .ok (v, 44 :: (tm ++ 125 :: rest)) :=
      ih _ List.mem_cons_self hv (by omega) (noNumber_cons (by decide))
    have hkeys' : Sorted compare ((acc ++ [(key, v)]) ++ m :: members) := by simpa using hkeys
    obtain ⟨k, w⟩ := m
    rw [List.append_assoc, List.cons_append, List.append_assoc, List.cons_append,
      parseMembers_step hread, expect_self (by decide)]
    simp only [if_true]
    rw [hset, ihl (fun x hx => ih x (List.mem_cons_of_mem _ hx)) hm (by omega) hkeys'
      (set_last fun a ha => (sorted_append.mp hkeys').2.2 a ha _ List.mem_cons_self)
      (by simp [serializeStr])]
    simp

theorem readsBack_array (ih : ∀ v ∈ items, ReadsBack depths v) :
    ReadsBack (depths + 1) (.array items) := by
  intro text fuel rest htext hfuel hrest
  obtain ⟨ts, hts, htext⟩ := Option.bind_eq_some_iff.mp htext
  cases htext
  obtain ⟨fuel, rfl⟩ := Nat.exists_eq_add_one_of_ne_zero (show fuel ≠ 0 by omega)
  simp only [List.length_cons, List.length_append, List.length_nil] at hfuel
  rw [List.cons_append, List.append_assoc, List.cons_append, List.nil_append, parseValue,
    skipWs_cons_of_not_ws (by decide)]
  cases items with
  | nil =>
    cases hts
    rw [List.nil_append]
    simp only [expect_self (show isWs 93 = false by decide)]
    rfl
  | cons v items =>
    have hhead : ∃ c t, ts = c :: t ∧ isWs c = false ∧ c ≠ 93 := by
      cases items with
      | nil => exact serialize_head hts
      | cons w items =>
        obtain ⟨tv, tw, hv, -, rfl⟩ := serializeItems_cons hts
        obtain ⟨c, t, rfl, hc⟩ := serialize_head hv
        exact ⟨c, _, rfl, hc⟩
    have hread : parseItems fuel depths [] (ts ++ 93 :: rest) = .ok (v :: items, rest) :=
      parseItems_serialized ih hts (by omega)
    obtain ⟨c, t, rfl, hws, hne⟩ := hhead
    rw [List.cons_append] at hread ⊢
    simp only [expect_other hws hne, hread]
    rfl

theorem readsBack_object (hkeys : Sorted compare members)
    (ih : ∀ m ∈ members, ReadsBack (depths + 1) m.2) :
    ReadsBack (depths + 1) (.object members) := by
  intro text fuel rest htext hfuel hrest
  obtain ⟨ts, hts, htext⟩ := Option.bind_eq_some_iff.mp htext
  cases htext
  obtain ⟨fuel, rfl⟩ := Nat.exists_eq_add_one_of_ne_zero (show fuel ≠ 0 by omega)
  simp only [List.length_cons, List.length_append, List.length_nil] at hfuel
  rw [List.cons_append, List.append_assoc, List.cons_append, List.nil_append, parseValue,
    skipWs_cons_of_not_ws (by decide)]
  cases members with
  | nil =>
    cases hts
    rw [List.nil_append]
    simp only [expect_self (show isWs 125 = false by decide)]
    rfl
  | cons m members =>
    obtain ⟨key, v⟩ := m
    have hhead : ∃ t, ts = 34 :: t := by
      cases members with
      | nil =>
        obtain ⟨tv, -, rfl⟩ := serializeMembers_single hts
        exact ⟨_, rfl⟩
      | cons m members =>
        obtain ⟨tv, tm, -, -, rfl⟩ := serializeMembers_cons hts
        exact ⟨_, rfl⟩
    have hread : parseMembers fuel (depths + 1) [] (ts ++ 125 :: rest) =
        .ok ((key, v) :: members, rest) :=
      parseMembers_serialized ih hts (by omega) hkeys
    obtain ⟨t, rfl⟩ := hhead
    rw [List.cons_append] at hread ⊢
    simp only [expect_other (show isWs 34 = false by decide) (show (34 : UInt8) ≠ 125 by decide),
      hread]
    rfl

theorem readsBack_of_parsed (h : Parsed depths v) : ReadsBack depths v := by
  induction h with
  | null =>
    intro text fuel rest htext hfuel _
    cases htext
    obtain ⟨fuel, rfl⟩ := Nat.exists_eq_add_one_of_ne_zero (show fuel ≠ 0 by omega)
    simp [parseValue, skipWs, isWs, matchText, ascii, bind, Except.bind, pure, Except.pure]
  | boolean b =>
    intro text fuel rest htext hfuel _
    cases htext
    obtain ⟨fuel, rfl⟩ := Nat.exists_eq_add_one_of_ne_zero (show fuel ≠ 0 by omega)
    cases b <;>
      simp [parseValue, skipWs, isWs, matchText, ascii, bind, Except.bind, pure, Except.pure]
  | int64 hlo hhi => exact readsBack_int64 hlo hhi
  | number =>
    intro text fuel rest htext
    cases htext
  | string s =>
    intro text fuel rest htext hfuel _
    cases htext
    obtain ⟨fuel, rfl⟩ := Nat.exists_eq_add_one_of_ne_zero (show fuel ≠ 0 by omega)
    rw [serializeStr_append, parseValue, skipWs_cons_of_not_ws (by decide)]
    simp [parseString_serialized, bind, Except.bind, pure, Except.pure]
  | array _ ih => exact readsBack_array ih
  | object hkeys _ ih => exact readsBack_object hkeys ih

theorem parse_of_parsed {text : Bytes} (h : Parsed DEFAULT_MAX_DEPTHS v)
    (htext : serialize v = some text) : parse text = .ok v := by
  have hread : parseValue (2 * text.length + 1) DEFAULT_MAX_DEPTHS (text ++ []) = .ok (v, []) :=
    readsBack_of_parsed h htext le_rfl (by simp [NoNumber])
  rw [List.append_nil] at hread
  rw [parse, hread]
  rfl

/-- A number that is not an int64 stands somewhere in the value. -/
inductive HoldsDouble : Json → Prop
  | number : HoldsDouble .number
  | array {items : List Json} {v : Json} (hv : v ∈ items) (h : HoldsDouble v) :
      HoldsDouble (.array items)
  | object {members : List (Bytes × Json)} {m : Bytes × Json} (hm : m ∈ members)
      (h : HoldsDouble m.2) : HoldsDouble (.object members)

theorem holdsDouble_array : HoldsDouble (.array items) ↔ ∃ v ∈ items, HoldsDouble v :=
  ⟨fun h => by cases h with | array hv h => exact ⟨_, hv, h⟩, fun ⟨_, hv, h⟩ => .array hv h⟩

theorem holdsDouble_object : HoldsDouble (.object members) ↔ ∃ m ∈ members, HoldsDouble m.2 :=
  ⟨fun h => by cases h with | object hm h => exact ⟨_, hm, h⟩, fun ⟨_, hm, h⟩ => .object hm h⟩

mutual

/-- The texts of all other values are modelled. -/
theorem serialize_none_iff (v : Json) : serialize v = none ↔ HoldsDouble v := by
  cases v with
  | number => exact ⟨fun _ => .number, fun _ => rfl⟩
  | array items =>
    rw [holdsDouble_array, ← serializeItems_none_iff items, serialize]
    cases serializeItems items <;> simp
  | object members =>
    rw [holdsDouble_object, ← serializeMembers_none_iff members, serialize]
    cases serializeMembers members <;> simp
  | _ => exact ⟨nofun, nofun⟩

theorem serializeItems_none_iff (items : List Json) :
    serializeItems items = none ↔ ∃ v ∈ items, HoldsDouble v := by
  match items with
  | [] => simp [serializeItems]
  | [v] => simp [serializeItems, serialize_none_iff v]
  | v :: w :: items =>
    rw [List.exists_mem_cons_iff, ← serialize_none_iff v, ← serializeItems_none_iff (w :: items),
      serializeItems]
    · cases serialize v <;> cases serializeItems (w :: items) <;> simp
    · simp

theorem serializeMembers_none_iff (members : List (Bytes × Json)) :
    serializeMembers members = none ↔ ∃ m ∈ members, HoldsDouble m.2 := by
  match members with
  | [] => simp [serializeMembers]
  | [(key, v)] =>
    have hsome : serializeMembers [(key, v)] = (serialize v).map (serializeStr key ++ 58 :: ·) := by
      rw [serializeMembers]
      cases serialize v <;> rfl
    simp [hsome, serialize_none_iff v]
  | (key, v) :: m :: members =>
    rw [List.exists_mem_cons_iff, ← serialize_none_iff v,
      ← serializeMembers_none_iff (m :: members), serializeMembers]
    · cases serialize v <;> cases serializeMembers (m :: members) <;> simp
    · simp

end

/-- The parser returns only values that it would return again, and reads them back from what the
serializer writes, unless they hold a double; another value it does not read back. -/
theorem parse_serialize :
    (∀ s v, parse s = .ok v → Parsed DEFAULT_MAX_DEPTHS v) ∧
    (∀ v, serialize v = none ↔ HoldsDouble v) ∧
    (∀ v text, serialize v = some text →
      (parse text = .ok v ↔ Parsed DEFAULT_MAX_DEPTHS v)) ∧
    ∀ s, parse s ≠ .error .outOfFuel :=
  ⟨fun _ _ h => parse_parsed h, serialize_none_iff,
    fun _ _ htext => ⟨parse_parsed, fun h => parse_of_parsed h htext⟩, parse_enough_fuel⟩

mutual

/-- How many arrays lie around the innermost value. -/
def arrayDepth : Json → Nat
  | .array items => itemsArrayDepth items + 1
  | .object members => membersArrayDepth members
  | _ => 0

def itemsArrayDepth : List Json → Nat
  | [] => 0
  | v :: items => max (arrayDepth v) (itemsArrayDepth items)

def membersArrayDepth : List (Bytes × Json) → Nat
  | [] => 0
  | (_, v) :: members => max (arrayDepth v) (membersArrayDepth members)

end

theorem itemsArrayDepth_le {n : Nat} (h : ∀ v ∈ items, arrayDepth v ≤ n) :
    itemsArrayDepth items ≤ n := by
  induction items with
  | nil => exact Nat.zero_le n
  | cons v items ih =>
    obtain ⟨hv, hitems⟩ := List.forall_mem_cons.mp h
    exact Nat.max_le.mpr ⟨hv, ih hitems⟩

theorem membersArrayDepth_le {n : Nat} (h : ∀ m ∈ members, arrayDepth m.2 ≤ n) :
    membersArrayDepth members ≤ n := by
  induction members with
  | nil => exact Nat.zero_le n
  | cons m members ih =>
    obtain ⟨hm, hmembers⟩ := List.forall_mem_cons.mp h
    exact Nat.max_le.mpr ⟨hm, ih hmembers⟩

theorem arrayDepth_le (h : Parsed depths v) : arrayDepth v ≤ depths := by
  induction h with
  | null => exact Nat.zero_le _
  | boolean b => exact Nat.zero_le _
  | int64 hlo hhi => exact Nat.zero_le _
  | number => exact Nat.zero_le _
  | string s => exact Nat.zero_le _
  | array _ ih => exact Nat.succ_le_succ (itemsArrayDepth_le ih)
  | object _ _ ih => exact membersArrayDepth_le ih

def nestedArrays : Nat → Json
  | 0 => .array []
  | n + 1 => .array [nestedArrays n]

def nestedArraysText : Nat → Bytes
  | 0 => [91, 93]
  | n + 1 => 91 :: (nestedArraysText n ++ [93])

def nestedObjects : Nat → Json
  | 0 => .object []
  | n + 1 => .object [([], nestedObjects n)]

def nestedObjectsText : Nat → Bytes
  | 0 => [123, 125]
  | n + 1 => 123 :: (serializeStr [] ++ 58 :: nestedObjectsText n ++ [125])

theorem serialize_nestedArrays (n : Nat) :
    serialize (nestedArrays n) = some (nestedArraysText n) := by
  induction n with
  | zero => rfl
  | succ n ih =>
    have hitems : serializeItems [nestedArrays n] = some (nestedArraysText n) := ih
    rw [nestedArrays, serialize, hitems]
    rfl

theorem serialize_nestedObjects (n : Nat) :
    serialize (nestedObjects n) = some (nestedObjectsText n) := by
  induction n with
  | zero => rfl
  | succ n ih =>
    have hmembers : serializeMembers [([], nestedObjects n)] =
        some (serializeStr [] ++ 58 :: nestedObjectsText n) := by
      rw [serializeMembers, ih]
      rfl
    rw [nestedObjects, serialize, hmembers]
    rfl

theorem nestedArrays_parsed {n : Nat} (h : n < depths) : Parsed depths (nestedArrays n) := by
  induction n generalizing depths with
  | zero =>
    obtain ⟨d, rfl⟩ := Nat.exists_eq_add_one_of_ne_zero (Nat.ne_of_gt h)
    exact .array (by simp)
  | succ n ih =>
    obtain ⟨d, rfl⟩ := Nat.exists_eq_add_one_of_ne_zero (show depths ≠ 0 by omega)
    exact .array (by simpa using ih (by omega))

/-- An object leaves the objects in it all the depth it had. -/
theorem nestedObjects_parsed (n : Nat) : Parsed (depths + 1) (nestedObjects n) := by
  induction n with
  | zero => exact .object sorted_nil (by simp)
  | succ n ih => exact .object (by simp [Sorted]) (by simpa using ih)

theorem parseValue_tooDeep {k : Nat} (h : depths < k) :
    parseValue fuel depths (List.replicate k 91 ++ rest) = .error .syntaxError ∨
      parseValue fuel depths (List.replicate k 91 ++ rest) = .error .outOfFuel := by
  induction depths generalizing fuel k with
  | zero =>
    obtain ⟨k, rfl⟩ := Nat.exists_eq_add_one_of_ne_zero (Nat.ne_of_gt h)
    cases fuel with
    | zero => exact .inr rfl
    | succ fuel =>
      left
      rw [List.replicate_succ, List.cons_append, parseValue, skipWs_cons_of_not_ws (by decide)]
      rfl
  | succ depths ih =>
    obtain ⟨k, rfl⟩ := Nat.exists_eq_add_of_le' (show 2 ≤ k by omega)
    rcases fuel with _ | _ | fuel
    · exact .inr rfl
    · right
      rw [List.replicate_succ, List.replicate_succ, List.cons_append, List.cons_append, parseValue,
        skipWs_cons_of_not_ws (by decide)]
      simp only [expect_other (show isWs 91 = false by decide) (show (91 : UInt8) ≠ 93 by decide)]
      rfl
    · have hinner := @ih fuel (k + 1) (by omega)
      rw [List.replicate_succ, List.cons_append] at hinner
      rw [List.replicate_succ, List.replicate_succ, List.cons_append, List.cons_append, parseValue,
        skipWs_cons_of_not_ws (by decide)]
      simp only [expect_other (show isWs 91 = false by decide) (show (91 : UInt8) ≠ 93 by decide),
        parseItems]
      rcases hinner with hinner | hinner
      · left
        rw [hinner]
        rfl
      · right
        rw [hinner]
        rfl

/-- More opening brackets than the parser has depths are refused, whatever follows. -/
theorem parse_tooDeep {k : Nat} (h : DEFAULT_MAX_DEPTHS < k) :
    parse (List.replicate k 91 ++ rest) = .error .syntaxError := by
  have hfuel := parse_enough_fuel (List.replicate k 91 ++ rest)
  rw [parse] at hfuel ⊢
  generalize 2 * (List.replicate k 91 ++ rest).length + 1 = fuel at hfuel ⊢
  rcases @parseValue_tooDeep fuel DEFAULT_MAX_DEPTHS rest k h with hdeep | hdeep
  · rw [hdeep]
    rfl
  · rw [hdeep] at hfuel
    exact (hfuel rfl).elim

/-- Around no value that was parsed lie more than a hundred arrays, and a hundred are read; objects
nest to any depth. -/
theorem parse_nesting :
    (∀ s v, parse s = .ok v → arrayDepth v ≤ DEFAULT_MAX_DEPTHS) ∧
    (∀ n < DEFAULT_MAX_DEPTHS, parse (nestedArraysText n) = .ok (nestedArrays n)) ∧
    (∀ k rest, DEFAULT_MAX_DEPTHS < k → parse (List.replicate k 91 ++ rest) = .error .syntaxError) ∧
    ∀ n, parse (nestedObjectsText n) = .ok (nestedObjects n) := by
  refine ⟨fun s v h => arrayDepth_le (parse_parsed h), ?_, fun k rest h => parse_tooDeep h, ?_⟩
  · intro n hn
    exact parse_of_parsed (nestedArrays_parsed hn) (serialize_nestedArrays n)
  · intro n
    exact parse_of_parsed (nestedObjects_parsed n) (serialize_nestedObjects n)

end Gateway.Picojson
