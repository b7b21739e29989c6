import Mathlib

/-! Byte strings and the parts of the C++ standard library the gateway reads them with. -/
namespace Gateway

abbrev Bytes := List UInt8

/-- A string literal of the source. -/
def ascii (s : String) : Bytes := s.toList.map fun c => c.toNat.toUInt8

def CR : UInt8 := 13
def LF : UInt8 := 10
def crlf : Bytes := [13, 10]

/-- The empty line that ends a message head. -/
def crlfcrlf : Bytes := [13, 10, 13, 10]

/-- `std::isspace` in the C locale. -/
def isSpace (c : UInt8) : Bool := c == 32 || (9 ≤ c && c ≤ 13)

def isUpper (c : UInt8) : Bool := 65 ≤ c && c ≤ 90

def isDigit (c : UInt8) : Bool := 48 ≤ c && c ≤ 57

/-- `std::iscntrl` in the C locale. -/
def isControl (c : UInt8) : Bool := c < 32 || c == 127

/-- `std::tolower` in the C locale. -/
def lowerByte (c : UInt8) : UInt8 := if isUpper c then c + 32 else c

def toLower (s : Bytes) : Bytes := s.map lowerByte

/-- A space or a tab. -/
def isBlank (c : UInt8) : Bool := c == 32 || c == 9

/-- `trimStr` of Http.cpp, and the `find_first_not_of`/`find_last_not_of` trims elsewhere. -/
def trimStr (s : Bytes) : Bytes := (s.dropWhile isBlank).rdropWhile isBlank

/-- One `stream >> word`: skips white space, then reads up to the next white space. -/
def readWord (s : Bytes) : Option (Bytes × Bytes) :=
  match s.dropWhile isSpace with
  | [] => none
  | t => some (t.takeWhile (!isSpace ·), t.dropWhile (!isSpace ·))

/-- The number a run of decimal digits denotes. -/
def decimal (s : Bytes) : Nat := s.foldl (fun n c => 10 * n + (c.toNat - 48)) 0

/-- `std::to_string` of a natural number. -/
def toDecimal (n : Nat) : Bytes := (Nat.toDigits 10 n).map fun c => c.toNat.toUInt8

/-- The optional sign that `strtol` reads. -/
def readSign : Bytes → Bool × Bytes
  | 45 :: t => (true, t)
  | 43 :: t => (false, t)
  | t => (false, t)

/-- `std::stoi`, where `none` is a thrown `invalid_argument` or `out_of_range`. -/
def stoi (s : Bytes) : Option Int :=
  let (neg, t) := readSign (s.dropWhile isSpace)
  let digits := t.takeWhile isDigit
  if digits = [] then none
  else
    let n : Int := if neg then -(decimal digits : Int) else decimal digits
    if n < -2147483648 ∨ 2147483647 < n then none else some n

example : stoi (ascii " -42abc") = some (-42) := by decide

theorem readWord_eq_some {s w rest : Bytes} (h : readWord s = some (w, rest)) :
    w ≠ [] ∧ ∀ c ∈ w, isSpace c = false := by
  simp only [readWord] at h
  split at h
  · cases h
  · rename_i t hne
    obtain ⟨rfl, -⟩ := by simpa using h
    generalize hd : s.dropWhile isSpace = t at hne
    have hhead : ∀ c cs, t = c :: cs → isSpace c = false := by
      intro c cs ht
      have := List.dropWhile_get_zero_not isSpace s (by simp [hd, ht])
      simpa [hd, ht] using this
    constructor
    · cases t with
      | nil => exact (hne rfl).elim
      | cons c cs => simp [hhead c cs rfl]
    · intro c hc
      simpa using List.mem_takeWhile_imp hc

theorem digit_of_mem_toDecimal {n : Nat} {c : UInt8} (h : c ∈ toDecimal n) :
    isDigit c = true := by
  obtain ⟨d, hd, rfl⟩ := List.mem_map.mp h
  have hdig := Nat.isDigit_of_mem_toDigits (by omega) (by omega) hd
  simp only [Char.isDigit, Bool.and_eq_true, decide_eq_true_eq] at hdig
  obtain ⟨hlo, hhi⟩ := hdig
  have hlo : 48 ≤ d.toNat := hlo
  have hhi : d.toNat ≤ 57 := hhi
  simp only [isDigit, Bool.and_eq_true, decide_eq_true_eq, UInt8.le_iff_toNat_le]
  simp
  omega

/-- `std::to_string` writes the number it is given. -/
theorem decimal_toDecimal (n : Nat) : decimal (toDecimal n) = n := by
  have key : ∀ (cs : List Char) (acc : Nat), (∀ c ∈ cs, c.isDigit = true) →
      (cs.map fun c => c.toNat.toUInt8).foldl (fun n c => 10 * n + (c.toNat - 48)) acc =
        Nat.ofDigitChars 10 cs acc := by
    intro cs
    induction cs with
    | nil => simp
    | cons c cs ih =>
      intro acc h
      have hdig := h c (by simp)
      simp only [Char.isDigit, Bool.and_eq_true, decide_eq_true_eq] at hdig
      have hhi : c.toNat ≤ 57 := hdig.2
      have hc : c.toNat.toUInt8.toNat = c.toNat := by
        simp
        omega
      simp only [List.map_cons, List.foldl_cons, hc]
      rw [ih _ (fun d hd => h d (List.mem_cons_of_mem c hd)), Nat.ofDigitChars_cons]
      rfl
  rw [decimal, toDecimal,
    key _ _ (fun c hc => Nat.isDigit_of_mem_toDigits (by omega) (by omega) hc),
    Nat.ofDigitChars_ten_toDigits]

theorem toDecimal_ne_nil (n : Nat) : toDecimal n ≠ [] := by
  simp [toDecimal, Nat.toDigits_ne_nil]

theorem not_space_of_digit {c : UInt8} (h : isDigit c = true) : isSpace c = false := by
  simp only [isDigit, isSpace, Bool.and_eq_true, decide_eq_true_eq] at h ⊢
  grind

theorem readSign_of_digit {c : UInt8} {t : Bytes} (h : isDigit c = true) :
    readSign (c :: t) = (false, c :: t) := by
  unfold readSign
  split
  · rename_i heq
    cases heq
    exact absurd h (by decide)
  · rename_i heq
    cases heq
    exact absurd h (by decide)
  · rfl

/-- `std::stoi` reads the digits behind blanks and a plus sign, and nothing behind them. -/
theorem stoi_written {blanks sign digits rest : Bytes} (hblanks : ∀ c ∈ blanks, isSpace c = true)
    (hsign : sign = [] ∨ sign = [43]) (hne : digits ≠ [])
    (hdigits : ∀ c ∈ digits, isDigit c = true) (hrest : ∀ c ∈ rest.head?, isDigit c = false)
    (hmax : decimal digits ≤ 2147483647) :
    stoi (blanks ++ sign ++ digits ++ rest) = some (decimal digits : Int) := by
  have htake : (digits ++ rest).takeWhile isDigit = digits := by
    rw [List.takeWhile_append_of_pos hdigits]
    cases rest with
    | nil => simp
    | cons c cs => simp [hrest c rfl]
  obtain ⟨d, ds, rfl⟩ := List.exists_cons_of_ne_nil hne
  have hd := hdigits d List.mem_cons_self
  have hsigned : (sign ++ (d :: ds ++ rest)).dropWhile isSpace = sign ++ (d :: ds ++ rest) ∧
      readSign (sign ++ (d :: ds ++ rest)) = (false, d :: ds ++ rest) := by
    obtain rfl | rfl := hsign
    · simp [not_space_of_digit hd, readSign_of_digit hd]
    · have hplus : isSpace 43 = false := by decide
      simp [hplus, readSign]
  rw [List.append_assoc, List.append_assoc, stoi, List.dropWhile_append_of_pos hblanks,
    hsigned.1, hsigned.2]
  simp only [htake, reduceCtorEq, if_false, Bool.false_eq_true]
  rw [if_neg (by omega)]

theorem readSign_plus {s t : Bytes} (h : readSign s = (false, t)) :
    ∃ sign, s = sign ++ t ∧ (sign = [] ∨ sign = [43]) := by
  unfold readSign at h
  split at h
  · cases h
  · cases h
    exact ⟨[43], rfl, .inr rfl⟩
  · cases h
    exact ⟨[], rfl, .inl rfl⟩

/-- What `std::stoi` has read when it returns a positive number. -/
theorem written_of_stoi {s : Bytes} {n : Int} (h : stoi s = some n) (hpos : 0 < n) :
    ∃ blanks sign digits rest, s = blanks ++ sign ++ digits ++ rest ∧
      (∀ c ∈ blanks, isSpace c = true) ∧ (sign = [] ∨ sign = [43]) ∧ digits ≠ [] ∧
      (∀ c ∈ digits, isDigit c = true) ∧ (∀ c ∈ rest.head?, isDigit c = false) ∧
      n = decimal digits := by
  unfold stoi at h
  generalize hread : readSign (s.dropWhile isSpace) = r at h
  obtain ⟨neg, t⟩ := r
  dsimp only at h
  split at h
  · cases h
  · rename_i hne
    cases neg with
    | true =>
      simp only [if_true] at h
      split at h
      · cases h
      · cases h
        omega
    | false =>
      simp only [Bool.false_eq_true, if_false] at h
      split at h
      · cases h
      · cases h
        obtain ⟨sign, ht, hsign⟩ := readSign_plus hread
        refine ⟨s.takeWhile isSpace, sign, t.takeWhile isDigit, t.dropWhile isDigit, ?_,
          fun c => List.mem_takeWhile_imp, hsign, hne, fun c => List.mem_takeWhile_imp, ?_, rfl⟩
        · rw [List.append_assoc, List.takeWhile_append_dropWhile, List.append_assoc, ← ht,
            List.takeWhile_append_dropWhile]
        · intro c hc
          have hhead := List.head?_dropWhile_not isDigit t
          rw [hc] at hhead
          simpa using hhead

/-- `std::stoi` reads back what `std::to_string` wrote. -/
theorem stoi_toDecimal {n : Nat} (h : n ≤ 2147483647) : stoi (toDecimal n) = some (n : Int) := by
  have hval := decimal_toDecimal n
  have hread := @stoi_written [] [] (toDecimal n) [] (by simp) (.inl rfl) (toDecimal_ne_nil n)
    (fun c hc => digit_of_mem_toDecimal hc) (by simp) (by omega)
  simpa [hval] using hread

end Gateway
